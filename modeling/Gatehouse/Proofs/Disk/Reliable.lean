import Gatehouse.Proofs.Disk.FileTree

set_option autoImplicit false

/-!
# Files that nothing stands in the way of

Where the directory of a file can be made, and neither the file nor the one beside it is a directory
then, everything succeeds from there on.
-/

namespace Gatehouse.FileTree

variable {tree other : FileTree} {path parent : FilePath}

/-- Follows one segment to a directory that is there. -/
def enterStep (tree : FileTree) (names : List String) (segment : String) :
    Except IoError (List String) := do
  let next ← tree.step names segment
  tree.enter next
  pure next

theorem enterStep_eq_ok {names next : List String} {segment : String} :
    tree.enterStep names segment = .ok next ↔
      tree.step names segment = .ok next ∧ tree.entryAt? next = some .directory := by
  rw [enterStep]
  cases tree.step names segment with
  | error error => simp [bind, Except.bind]
  | ok found =>
    simp only [bind, Except.bind]
    cases he : tree.enter found with
    | error error =>
      constructor
      · intro h
        cases h
      · rintro ⟨hfound, hentry⟩
        cases hfound
        rw [enter_eq_ok_iff.2 hentry] at he
        cases he
    | ok _ =>
      constructor
      · intro h
        cases h
        exact ⟨rfl, enter_eq_ok_iff.1 he⟩
      · rintro ⟨hfound, -⟩
        exact hfound

theorem Opens.enterStep (h : tree.Opens other) {names next : List String} {segment : String}
    (hs : tree.enterStep names segment = .ok next) : other.enterStep names segment = .ok next := by
  obtain ⟨hstep, hentry⟩ := enterStep_eq_ok.1 hs
  exact enterStep_eq_ok.2 ⟨h.step hstep, h next hentry⟩

theorem Opens.foldlM_enterStep (h : tree.Opens other) {segments names place : List String}
    (hs : segments.foldlM tree.enterStep names = .ok place) :
    segments.foldlM other.enterStep names = .ok place := by
  induction segments generalizing names with
  | nil => exact hs
  | cons segment rest ih =>
    obtain ⟨next, hnext, hrest⟩ := foldlM_cons_eq_ok.1 hs
    exact foldlM_cons_eq_ok.2 ⟨next, h.enterStep hnext, ih hrest⟩

theorem runFrom_makeStep_of_enterStep {names next : List String} {segment : String}
    (h : tree.enterStep names segment = .ok next) :
    (makeStep names segment).runFrom tree = (.ok next, tree) := by
  obtain ⟨hstep, hentry⟩ := enterStep_eq_ok.1 h
  rw [makeStep, Attempt.runFrom_bind, ask, Attempt.runFrom_ofFunction, hstep]
  dsimp only
  rw [Attempt.runFrom_bind, Attempt.runFrom_get]
  dsimp only
  rw [hentry]
  rfl

theorem runFrom_makeSteps_of_enterSteps {segments names place : List String}
    (h : segments.foldlM tree.enterStep names = .ok place) :
    (segments.foldlM makeStep names).runFrom tree = (.ok place, tree) := by
  induction segments generalizing names with
  | nil =>
    cases h
    rfl
  | cons segment rest ih =>
    obtain ⟨next, hnext, hrest⟩ := foldlM_cons_eq_ok.1 h
    rw [List.foldlM_cons]
    exact Attempt.runFrom_bind_eq_ok.2
      ⟨next, tree, runFrom_makeStep_of_enterStep hnext, ih hrest⟩

theorem enterStep_of_makeStep {names next : List String} {segment : String} {after : FileTree}
    (h : (makeStep names segment).runFrom tree = (.ok next, after)) :
    after.enterStep names segment = .ok next ∧ tree.Opens after := by
  obtain ⟨hstep, ⟨rfl, hentry⟩ | ⟨hne, -, rfl⟩⟩ := makeStep_ok h
  · exact ⟨enterStep_eq_ok.2 ⟨hstep, hentry⟩, fun _ => id⟩
  · have hopens : tree.Opens (tree.put next .directory) := opens_put_directory hne
    refine ⟨enterStep_eq_ok.2 ⟨hopens.step hstep, ?_⟩, hopens⟩
    rw [entryAt?_put _ _ _ _ hne, if_pos rfl]

theorem enterSteps_of_makeSteps {segments names place : List String} {after : FileTree}
    (h : (segments.foldlM makeStep names).runFrom tree = (.ok place, after)) :
    segments.foldlM after.enterStep names = .ok place ∧ tree.Opens after := by
  induction segments generalizing names tree with
  | nil =>
    cases h
    exact ⟨rfl, fun _ => id⟩
  | cons segment rest ih =>
    rw [List.foldlM_cons] at h
    obtain ⟨next, mid, hmade, hrest⟩ := Attempt.runFrom_bind_eq_ok.1 h
    obtain ⟨hnext, hopens⟩ := enterStep_of_makeStep hmade
    obtain ⟨hfold, hopened⟩ := ih hrest
    exact ⟨foldlM_cons_eq_ok.2 ⟨next, hopened.enterStep hnext, hfold⟩,
      fun names h => hopened names (hopens names h)⟩

theorem createDirs_again {after : FileTree} (h : (createDirs path).runFrom tree = (.ok (), after))
    (hopens : after.Opens other) : (createDirs path).runFrom other = (.ok (), other) := by
  rw [createDirs] at h ⊢
  split
  · rfl
  · next hpath =>
    rw [if_neg hpath] at h
    obtain ⟨_, _, hchecked, h⟩ := Attempt.runFrom_bind_eq_ok.1 h
    obtain ⟨hcheck, rfl⟩ := runFrom_ask_eq_ok.1 hchecked
    obtain ⟨names, made, hmade, h⟩ := Attempt.runFrom_bind_eq_ok.1 h
    obtain ⟨place, _, hfollowed, h⟩ := Attempt.runFrom_bind_eq_ok.1 h
    obtain ⟨hfollow, rfl⟩ := runFrom_ask_eq_ok.1 hfollowed
    obtain ⟨henter, rfl⟩ := runFrom_ask_eq_ok.1 h
    obtain ⟨hsteps, -⟩ := enterSteps_of_makeSteps hmade
    have hentered : other.enter place = .ok () :=
      enter_eq_ok_iff.2 (hopens place (enter_eq_ok_iff.1 henter))
    refine Attempt.runFrom_bind_eq_ok.2 ⟨(), other, runFrom_ask_eq_ok.2 ⟨hcheck, rfl⟩, ?_⟩
    refine Attempt.runFrom_bind_eq_ok.2 ⟨names, other,
      runFrom_makeSteps_of_enterSteps (hopens.foldlM_enterStep hsteps), ?_⟩
    refine Attempt.runFrom_bind_eq_ok.2 ⟨place, other,
      runFrom_ask_eq_ok.2 ⟨hopens.foldlM_step hfollow, rfl⟩, ?_⟩
    exact runFrom_ask_eq_ok.2 ⟨hentered, rfl⟩

def IsOpen (path : FilePath) (tree : FileTree) : Prop :=
  ∃ place, tree.locate path = .ok place ∧ tree.entryAt? place ≠ some .directory

theorem IsOpen.of_opens (h : IsOpen path tree) (hopens : tree.Opens other)
    (hback : other.Opens tree) : IsOpen path other := by
  obtain ⟨place, hl, he⟩ := h
  exact ⟨place, hopens.locate hl, fun hdirectory => he (hback place hdirectory)⟩

theorem IsOpen.writeFile (h : IsOpen path tree) (content : List UInt8) :
    ∃ after, tree.writeFile path content = .ok after := by
  obtain ⟨place, hl, he⟩ := h
  exact ⟨_, writeFile_eq_ok.2 ⟨place, hl, he, rfl⟩⟩

theorem opens_of_drop {names : List String} (hnames : names ≠ []) : (tree.drop names).Opens tree := by
  intro place hplace
  rw [entryAt?_drop _ _ _ hnames] at hplace
  split at hplace
  · cases hplace
  · exact hplace

theorem opens_of_put_file {names : List String} (content : List UInt8) (hnames : names ≠ []) :
    (tree.put names (.file content)).Opens tree := by
  intro place hplace
  rw [entryAt?_put _ _ _ _ hnames] at hplace
  split at hplace
  · cases hplace
  · exact hplace

theorem opens_writeFile {content : List UInt8} {after : FileTree}
    (h : tree.writeFile path content = .ok after) : tree.Opens after ∧ after.Opens tree := by
  obtain ⟨names, -, he, rfl⟩ := writeFile_eq_ok.1 h
  have hnames : names ≠ [] := by
    rintro rfl
    exact he rfl
  exact ⟨opens_put_file content he, opens_of_put_file content hnames⟩

theorem opens_renameFile {source target : FilePath} {after : FileTree}
    (h : tree.renameFile source target = .ok after) : tree.Opens after ∧ after.Opens tree := by
  obtain ⟨names, content, -, he, hw⟩ := renameFile_eq_ok.1 h
  have hnames : names ≠ [] := by
    rintro rfl
    cases he
  have hdrop := opens_drop_file he
  have hback : (tree.drop names).Opens tree := opens_of_drop hnames
  obtain ⟨hopens, hopened⟩ := opens_writeFile hw
  exact ⟨fun place h => hopens place (hdrop place h), fun place h => hback place (hopened place h)⟩

/-- The directory of a file is there, and no directory is where the file or its temporary one goes. -/
structure Ready (path : FilePath) (tree : FileTree) : Prop where
  file : IsOpen path tree
  temporary : IsOpen path.temporary tree
  made {parent : FilePath} : path.parent? = some parent →
    (createDirs parent).runFrom tree = (.ok (), tree)

theorem Ready.of_opens (h : Ready path tree) (hopens : tree.Opens other)
    (hback : other.Opens tree) : Ready path other where
  file := h.file.of_opens hopens hback
  temporary := h.temporary.of_opens hopens hback
  made hparent := createDirs_again (h.made hparent) hopens

theorem Ready.write_rename (h : Ready path tree) (bytes : List UInt8) :
    ∃ after, (List.forM [disk.write path.temporary bytes, disk.rename path.temporary path] id).runFrom
      tree = (.ok (), after) := by
  obtain ⟨prepared, hwrite⟩ := h.temporary.writeFile bytes
  obtain ⟨hopens, hback⟩ := opens_writeFile hwrite
  obtain ⟨names, hl, he⟩ := readFile_eq_ok.1 (readFile_of_writeFile hwrite)
  have hnames : names ≠ [] := by
    rintro rfl
    cases he
  have hopen := (h.of_opens hopens hback).file.of_opens (opens_drop_file he) (opens_of_drop hnames)
  obtain ⟨after, hinto⟩ := hopen.writeFile bytes
  have hrename := renameFile_eq_ok.2 ⟨names, bytes, hl, he, hinto⟩
  refine ⟨after, ?_⟩
  rw [Attempt.runFrom_forM_cons_eq_ok]
  refine ⟨prepared, runFrom_change_eq_ok.2 hwrite, ?_⟩
  rw [Attempt.runFrom_forM_cons_eq_ok]
  exact ⟨after, runFrom_change_eq_ok.2 hrename, rfl⟩

/-- The directory of a file can be made, and until then nothing is at the temporary path. -/
def Unmade (path : FilePath) (tree : FileTree) : Prop :=
  (∀ place, tree.locate path.temporary ≠ .ok place) ∧
    ∃ parent made, path.parent? = some parent ∧
      (createDirs parent).runFrom tree = (.ok (), made) ∧ Ready path made

theorem Unmade.writeFile {bytes : List UInt8} {after : FileTree} (h : Unmade path tree) :
    tree.writeFile path.temporary bytes ≠ .ok after := by
  intro hwrite
  obtain ⟨place, hl, -⟩ := writeFile_eq_ok.1 hwrite
  exact h.1 place hl

theorem Unmade.renameFile {after : FileTree} (h : Unmade path tree) :
    tree.renameFile path.temporary path ≠ .ok after := by
  intro hrename
  obtain ⟨place, _, hl, -⟩ := renameFile_eq_ok.1 hrename
  exact h.1 place hl

/-- Where a way leads to a place as soon as more directories are there, only a missing directory
keeps it from doing so now. -/
theorem foldlM_step_or_notFound {segments names place : List String} (grows : tree.Grows other)
    (h : segments.foldlM other.step names = .ok place) :
    segments.foldlM tree.step names = .ok place ∨
      segments.foldlM tree.step names = .error .notFound := by
  induction segments generalizing names with
  | nil => exact .inl h
  | cons segment rest ih =>
    obtain ⟨next, hnext, hrest⟩ := foldlM_cons_eq_ok.1 h
    have hother := (step_eq_ok hnext).1
    rcases hentry : tree.entryAt? names with _ | entry
    · right
      simp [List.foldlM_cons, step, enter, hentry, bind, Except.bind]
    · cases entry with
      | file content =>
        rw [grows.kept hentry] at hother
        cases hother
      | directory =>
        have hstep : tree.step names segment = .ok next := by
          unfold step at hnext ⊢
          rwa [enter_eq_ok_iff.2 hentry, ← enter_eq_ok_iff.2 hother]
        rcases ih hrest with hfold | hfold
        · exact .inl (foldlM_cons_eq_ok.2 ⟨next, hstep, hfold⟩)
        · right
          rw [List.foldlM_cons, hstep]
          exact hfold

theorem readFile_of_isOpen (grows : tree.Grows other) (hopen : IsOpen path other) :
    (∃ content, tree.readFile path = .ok content) ∨ tree.readFile path = .error .notFound := by
  obtain ⟨place, hlocate, he⟩ := hopen
  have hcheck : path.check = .ok () := by
    unfold locate at hlocate
    cases hc : path.check with
    | error error => simp [hc, bind, Except.bind] at hlocate
    | ok _ => rfl
  have hold : tree.locate path = path.segments.foldlM tree.step [] := by
    rw [locate, hcheck]
    rfl
  rcases foldlM_step_or_notFound grows (locate_eq_ok hlocate) with hfold | hfold
  · rw [hfold] at hold
    rcases hentry : tree.entryAt? place with _ | entry
    · right
      simp [readFile, hold, hentry, bind, Except.bind]
    · cases entry with
      | directory => exact absurd (grows.kept hentry) he
      | file content => exact .inl ⟨content, readFile_eq_ok.2 ⟨place, hold, hentry⟩⟩
  · right
    simp [readFile, hold, hfold, bind, Except.bind]

def Writable (path : FilePath) (tree : FileTree) : Prop :=
  tree.Closed ∧ (Ready path tree ∨ Unmade path tree)

/-- A file is written and read without failure where its directory is there or can be made. -/
theorem reliable (path : FilePath) : disk.Reliable path (Writable path) where
  toFaithful := by
    apply faithful
    · rintro parent hparent tree ⟨closed, sound⟩
      refine ⟨(preserves_createDirs tree parent tree ⟨closed, .refl tree⟩).1, .inl ?_⟩
      change Ready path ((createDirs parent).runFrom tree).2
      rcases sound with ready | ⟨-, _, made, hsome, hmade, ready⟩
      · rwa [ready.made hparent]
      · obtain rfl := Option.some.inj (hparent.symm.trans hsome)
        rwa [hmade]
    · rintro bytes tree after ⟨closed, ready | unmade⟩ h
      · obtain ⟨hopens, hback⟩ := opens_writeFile h
        exact ⟨(closed.writeFile h).1, .inl (ready.of_opens hopens hback)⟩
      · exact absurd h unmade.writeFile
    · rintro tree after ⟨closed, ready | unmade⟩ h
      · obtain ⟨hopens, hback⟩ := opens_renameFile h
        exact ⟨(closed.renameFile h).1, .inl (ready.of_opens hopens hback)⟩
      · exact absurd h unmade.renameFile
  read_missing {tree} sound hnone := by
    obtain ⟨closed, sound⟩ := sound
    have hread : (∃ content, tree.readFile path = .ok content) ∨
        tree.readFile path = .error .notFound := by
      rcases sound with ready | ⟨-, parent, made, -, hmade, ready⟩
      · exact readFile_of_isOpen (.refl tree) ready.file
      · have grows := (preserves_createDirs tree parent tree ⟨closed, .refl tree⟩).2
        rw [hmade] at grows
        exact readFile_of_isOpen grows ready.file
    rcases hread with ⟨content, hread⟩ | hread
    · rw [contentAt?_disk, hread] at hnone
      cases hnone
    · exact hread
  writes_ok bytes {tree} sound := by
    obtain ⟨-, sound⟩ := sound
    have hwrites : ∃ after,
        ((JsonFile.writeSteps disk path bytes).forM id).runFrom tree = (.ok (), after) := by
      rcases sound with ready | ⟨-, parent, made, hparent, hmade, ready⟩
      · cases hparent : path.parent? with
        | none =>
          rw [JsonFile.writeSteps, hparent]
          exact ready.write_rename bytes
        | some parent =>
          rw [JsonFile.writeSteps, hparent]
          exact (ready.write_rename bytes).imp fun after hrun =>
            Attempt.runFrom_forM_cons_eq_ok.2 ⟨tree, ready.made hparent, hrun⟩
      · rw [JsonFile.writeSteps, hparent]
        exact (ready.write_rename bytes).imp fun after hrun =>
          Attempt.runFrom_forM_cons_eq_ok.2 ⟨made, hmade, hrun⟩
    obtain ⟨after, hrun⟩ := hwrites
    rw [hrun]

theorem writable_below : Writable ⟨"data/users.json"⟩ empty := by
  refine ⟨closed_empty, .inr ⟨fun place h => ?_, ⟨"data"⟩, empty.put ["data"] .directory, rfl, rfl, ?_⟩⟩
  · cases h
  · refine ⟨⟨["data", "users.json"], rfl, by decide⟩, ⟨["data", "users.json.tmp"], rfl, by decide⟩, ?_⟩
    intro parent hparent
    cases hparent
    rfl

end Gatehouse.FileTree
