import Gatehouse.Proofs.Disk.Making

set_option autoImplicit false

/-!
# Changes that are cut short

Each change to a file tree may fail, or the process may stop at it, with some part of it done: some
of the directories are made, or the file beside holds any content. A rename is done as a whole or
not at all. However a file is replaced under these conditions, its path keeps the old content until
it has the new one: what others see in the middle of a change is what a process leaves that stops
there.
-/

namespace Gatehouse.FileTree

inductive Portion where
  | nothing
  | directories (n : Nat)
  | content (bytes : List UInt8)
  deriving DecidableEq, Repr

/-- What becomes of a change. -/
inductive Fate where
  | done
  | fails (error : IoError) (portion : Portion)
  /-- The process stops during the change. -/
  | stops (portion : Portion)
  /-- The process stops after the change, and before it hears of it. -/
  | stopsAfter
  deriving DecidableEq, Repr

structure Interruptible where
  tree : FileTree
  fates : List Fate := []
  stopped : Bool := false
  deriving DecidableEq, Repr

namespace Interruptible

def change (step : Attempt IoError FileTree Unit) (partly : Portion → FileTree → FileTree) :
    Attempt IoError Interruptible Unit :=
  .ofFunction fun state =>
    if state.stopped then (.error .notFound, state)
    else
      match state.fates with
      | .fails error portion :: fates => (.error error, ⟨partly portion state.tree, fates, false⟩)
      | .stops portion :: fates => (.error .notFound, ⟨partly portion state.tree, fates, true⟩)
      | .stopsAfter :: fates => (.error .notFound, ⟨(step.runFrom state.tree).2, fates, true⟩)
      | fates => ((step.runFrom state.tree).1, ⟨(step.runFrom state.tree).2, fates.tail, false⟩)

def dirsPartly (path : FilePath) : Portion → FileTree → FileTree
  | .directories n => makeDirs path n
  | .nothing | .content _ => id

def writePartly (path : FilePath) : Portion → FileTree → FileTree
  | .content bytes => fun tree => ((FileTree.disk.write path bytes).runFrom tree).2
  | .nothing | .directories _ => id

def disk : Disk Interruptible where
  read path := (FileTree.disk.read path).onPart tree fun tree state => { state with tree }
  createDirs path := change (FileTree.disk.createDirs path) (dirsPartly path)
  write path bytes := change (FileTree.disk.write path bytes) (writePartly path)
  rename source target := change (FileTree.disk.rename source target) fun _ tree => tree

inductive Ended (step : Attempt IoError FileTree Unit) (partly : Portion → FileTree → FileTree)
    (state : Interruptible) : Except IoError Unit → Interruptible → Prop
  | wasStopped {error : IoError} (stopped : state.stopped = true) :
      Ended step partly state (.error error) state
  | done {outcome : Except IoError Unit} {tree : FileTree} {fates : List Fate}
      (run : step.runFrom state.tree = (outcome, tree)) :
      Ended step partly state outcome ⟨tree, fates, false⟩
  | cutShort {error : IoError} {portion : Portion} {fates : List Fate} {stopped : Bool} :
      Ended step partly state (.error error) ⟨partly portion state.tree, fates, stopped⟩
  | stoppedAfter {error : IoError} {outcome : Except IoError Unit} {tree : FileTree}
      {fates : List Fate} (run : step.runFrom state.tree = (outcome, tree)) :
      Ended step partly state (.error error) ⟨tree, fates, true⟩

theorem ended_of_change {step : Attempt IoError FileTree Unit}
    {partly : Portion → FileTree → FileTree} {state after : Interruptible}
    {outcome : Except IoError Unit} (h : (change step partly).runFrom state = (outcome, after)) :
    Ended step partly state outcome after := by
  rw [change, Attempt.runFrom_ofFunction] at h
  by_cases hstopped : state.stopped = true
  · rw [if_pos hstopped] at h
    cases h
    exact .wasStopped hstopped
  · rw [if_neg hstopped] at h
    rcases hfates : state.fates with _ | ⟨fate, fates⟩
    · rw [hfates] at h
      cases h
      exact .done rfl
    · rw [hfates] at h
      cases fate with
      | done =>
        cases h
        exact .done rfl
      | fails error portion =>
        cases h
        exact .cutShort
      | stops portion =>
        cases h
        exact .cutShort
      | stopsAfter =>
        cases h
        exact .stoppedAfter rfl

variable {path parent : FilePath} {state after : Interruptible} {bytes : List UInt8}
  {before : FileTree}

/-- Nothing has happened to a file yet. -/
structure Keeps (path : FilePath) (before : FileTree) (state : Interruptible) : Prop where
  undisturbed : Undisturbed path state.tree
  readFile_eq : state.tree.readFile path = before.readFile path

/-- The path has its old content or the new one as a whole; a process that goes on has heard which,
and what it has heard of as done is done. -/
structure Replaces (path : FilePath) (bytes : List UInt8) (before : FileTree) (succeeds : Bool)
    (after : Interruptible) : Prop where
  oldOrNew : after.tree.readFile path = before.readFile path ∨
    after.tree.readFile path = .ok bytes
  told : after.stopped = false →
    after.tree.readFile path = if succeeds then .ok bytes else before.readFile path
  returned : succeeds = true → after.stopped = false

theorem Keeps.replaces (h : Keeps path before state) : Replaces path bytes before false state :=
  ⟨.inl h.readFile_eq, fun _ => h.readFile_eq, nofun⟩

theorem keeps_createDirs (hparent : path.parent? = some parent) (h : Keeps path before state)
    {outcome : Except IoError Unit}
    (hrun : (disk.createDirs parent).runFrom state = (outcome, after)) :
    Keeps path before after := by
  have hmade : ∀ n fates stopped,
      Keeps path before ⟨makeDirs parent n state.tree, fates, stopped⟩ := fun n _ _ =>
    ⟨h.undisturbed.makeDirs hparent n, (h.undisturbed parent n hparent).trans h.readFile_eq⟩
  have hdone : ∀ {outcome tree}, (FileTree.disk.createDirs parent).runFrom state.tree =
      (outcome, tree) → ∃ n, tree = makeDirs parent n state.tree := by
    intro outcome tree hrun
    obtain ⟨n, hn⟩ := createDirs_leaves parent state.tree
    exact ⟨n, (congrArg Prod.snd hrun).symm.trans hn⟩
  cases ended_of_change hrun with
  | wasStopped stopped => exact h
  | done run =>
    obtain ⟨n, rfl⟩ := hdone run
    exact hmade n _ _
  | @cutShort _ portion =>
    cases portion with
    | directories n => exact hmade n _ _
    | nothing | content _ => exact ⟨h.undisturbed, h.readFile_eq⟩
  | stoppedAfter run =>
    obtain ⟨n, rfl⟩ := hdone run
    exact hmade n _ _

theorem keeps_of_write {tree : FileTree} (h : Keeps path before state)
    {outcome : Except IoError Unit}
    (hrun : (FileTree.disk.write path.temporary bytes).runFrom state.tree = (outcome, tree))
    (fates : List Fate) (stopped : Bool) : Keeps path before ⟨tree, fates, stopped⟩ := by
  cases outcome with
  | error error =>
    obtain rfl := runFrom_change_eq_error hrun
    exact ⟨h.undisturbed, h.readFile_eq⟩
  | ok _ =>
    have hwrite := runFrom_change_eq_ok.1 hrun
    exact ⟨undisturbed_writeFile hwrite, (readFile_writeFile_temporary hwrite).trans h.readFile_eq⟩

theorem keeps_write (h : Keeps path before state) {outcome : Except IoError Unit}
    (hrun : (disk.write path.temporary bytes).runFrom state = (outcome, after)) :
    Keeps path before after ∧ (outcome.isOk → after.tree.readFile path.temporary = .ok bytes) := by
  cases ended_of_change hrun with
  | wasStopped stopped => exact ⟨h, by simp [Except.isOk, Except.toBool]⟩
  | @done outcome tree fates run =>
    refine ⟨keeps_of_write h run _ _, fun hok => ?_⟩
    cases outcome with
    | error error => cases hok
    | ok _ => exact readFile_of_writeFile (runFrom_change_eq_ok.1 run)
  | @cutShort _ portion fates stopped =>
    refine ⟨?_, by simp [Except.isOk, Except.toBool]⟩
    cases portion with
    | content written => exact keeps_of_write h rfl fates stopped
    | nothing | directories _ => exact ⟨h.undisturbed, h.readFile_eq⟩
  | stoppedAfter run => exact ⟨keeps_of_write h run _ _, by simp [Except.isOk, Except.toBool]⟩

theorem replaces_rename (h : Keeps path before state)
    (hprepared : state.tree.readFile path.temporary = .ok bytes) {outcome : Except IoError Unit}
    (hrun : (disk.rename path.temporary path).runFrom state = (outcome, after)) :
    Undisturbed path after.tree ∧ Replaces path bytes before outcome.isOk after := by
  have hkept : ∀ fates stopped,
      Undisturbed path state.tree ∧ Replaces path bytes before false ⟨state.tree, fates, stopped⟩ :=
    fun _ _ => ⟨h.undisturbed, Keeps.replaces ⟨h.undisturbed, h.readFile_eq⟩⟩
  have hdone : ∀ {tree}, (FileTree.disk.rename path.temporary path).runFrom state.tree =
      (.ok (), tree) → Undisturbed path tree ∧ tree.readFile path = .ok bytes := by
    intro tree hrun
    have hrename := runFrom_change_eq_ok.1 hrun
    obtain ⟨names, content, hlocate, hentry, hwrite⟩ := renameFile_eq_ok.1 hrename
    have hcontent := readFile_eq_ok.2 ⟨names, hlocate, hentry⟩
    obtain rfl := Except.ok.inj (hcontent.symm.trans hprepared)
    exact ⟨undisturbed_renameFile hrename, readFile_of_writeFile hwrite⟩
  have hended : Ended (FileTree.disk.rename path.temporary path) (fun _ tree => tree) state outcome
      after := ended_of_change hrun
  cases hended with
  | wasStopped stopped => exact hkept _ _
  | @done outcome tree fates run =>
    cases outcome with
    | error error =>
      obtain rfl := runFrom_change_eq_error run
      exact hkept _ _
    | ok _ =>
      obtain ⟨hundisturbed, hread⟩ := hdone run
      exact ⟨hundisturbed, .inr hread, fun _ => hread, fun _ => rfl⟩
  | cutShort => exact hkept _ _
  | @stoppedAfter _ outcome tree fates run =>
    cases outcome with
    | error error =>
      obtain rfl := runFrom_change_eq_error run
      exact hkept _ _
    | ok _ =>
      obtain ⟨hundisturbed, hread⟩ := hdone run
      exact ⟨hundisturbed, .inr hread, nofun, nofun⟩

theorem replaces_write_rename (h : Keeps path before state) {outcome : Except IoError Unit}
    (hrun : (List.forM [disk.write path.temporary bytes, disk.rename path.temporary path]
      id).runFrom state = (outcome, after)) :
    Undisturbed path after.tree ∧ Replaces path bytes before outcome.isOk after := by
  rw [Attempt.runFrom_forM_cons] at hrun
  rcases hwrite : (disk.write path.temporary bytes).runFrom state with ⟨written, prepared⟩
  obtain ⟨hkeeps, hcontent⟩ := keeps_write h hwrite
  rw [hwrite] at hrun
  cases written with
  | error error =>
    cases hrun
    exact ⟨hkeeps.undisturbed, hkeeps.replaces⟩
  | ok _ =>
    dsimp only at hrun
    rw [Attempt.runFrom_forM_cons] at hrun
    rcases hrename : (disk.rename path.temporary path).runFrom prepared with ⟨renamed, last⟩
    have hreplaces := replaces_rename hkeeps (hcontent rfl) hrename
    rw [hrename] at hrun
    cases renamed with
    | error error =>
      cases hrun
      exact hreplaces
    | ok _ =>
      cases hrun
      exact hreplaces

theorem replaces_write (h : Undisturbed path state.tree) {value : Json}
    {outcome : Except FileError Unit}
    (hrun : (JsonFile.write disk path value).runFrom state = (outcome, after)) :
    Undisturbed path after.tree ∧
      Replaces path (JsonFile.content value) state.tree outcome.isOk after := by
  rw [JsonFile.write, Attempt.runFrom_mapError] at hrun
  rcases hsteps : ((JsonFile.writeSteps disk path (JsonFile.content value)).forM id).runFrom state
    with ⟨result, last⟩
  rw [hsteps] at hrun
  have hreplaces : Undisturbed path last.tree ∧
      Replaces path (JsonFile.content value) state.tree result.isOk last := by
    have hkeeps : Keeps path state.tree state := ⟨h, rfl⟩
    cases hparent : path.parent? with
    | none =>
      rw [JsonFile.writeSteps, hparent] at hsteps
      exact replaces_write_rename hkeeps hsteps
    | some parent =>
      rw [JsonFile.writeSteps, hparent] at hsteps
      change ((disk.createDirs parent :: [disk.write path.temporary _,
        disk.rename path.temporary path]).forM id).runFrom state = _ at hsteps
      rw [Attempt.runFrom_forM_cons] at hsteps
      rcases hmake : (disk.createDirs parent).runFrom state with ⟨made, mid⟩
      have hmade := keeps_createDirs hparent hkeeps hmake
      rw [hmake] at hsteps
      cases made with
      | error error =>
        cases hsteps
        exact ⟨hmade.undisturbed, hmade.replaces⟩
      | ok _ => exact replaces_write_rename hmade hsteps
  cases hrun
  cases result <;> exact hreplaces

theorem runFrom_write_stops {tree : FileTree} (hparent : path.parent? = some parent) (n : Nat)
    (value : Json) :
    (JsonFile.write disk path value).runFrom ⟨tree, [.stops (.directories n)], false⟩ =
      (.error (.io path), ⟨makeDirs parent n tree, [], true⟩) := by
  rw [JsonFile.write, JsonFile.writeSteps, hparent, Attempt.runFrom_mapError]
  rfl

end Interruptible

end Gatehouse.FileTree
