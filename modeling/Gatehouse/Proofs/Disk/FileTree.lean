import Gatehouse.Disk.FileTree
import Gatehouse.Proofs.Disk.JsonFile
import Gatehouse.Proofs.Text.Split

set_option autoImplicit false

/-!
# Files below a working directory

A disk of files and directories gives back what is written to it. Where the path of a file never
leads up, or where its directory is there, making the directory brings no file to it.
-/

namespace Gatehouse.FileTree

variable {tree other : FileTree} {path : FilePath}

theorem readFile_eq_ok {content : List UInt8} :
    tree.readFile path = .ok content ↔
      ∃ place, tree.locate path = .ok place ∧ tree.entryAt? place = some (.file content) := by
  unfold readFile
  cases hl : tree.locate path with
  | error error => simp [bind, Except.bind]
  | ok place =>
    rcases he : tree.entryAt? place with _ | entry
    · simp [bind, Except.bind, he]
    · cases entry <;> simp [bind, Except.bind, he]

theorem contentAt?_disk (path : FilePath) (tree : FileTree) :
    disk.contentAt? path tree = (tree.readFile path).toOption := rfl

theorem contentAt?_eq_of_reads
    (h : ∀ content, tree.readFile path = .ok content ↔ other.readFile path = .ok content) :
    disk.contentAt? path tree = disk.contentAt? path other := by
  apply Option.ext
  intro content
  rw [Disk.contentAt?_eq_some, Disk.contentAt?_eq_some]
  exact h content

/-- Whatever is in the tree stands in a directory. -/
def Closed (tree : FileTree) : Prop :=
  ∀ names, (tree.entryAt? names).isSome → tree.entryAt? names.dropLast = some .directory

theorem Closed.above {names : List String} (closed : tree.Closed)
    (h : tree.entryAt? names = some .directory) :
    tree.entryAt? names.dropLast = some .directory :=
  closed names (by rw [h]; rfl)

theorem closed_empty : empty.Closed := by
  intro names hnames
  by_cases he : names = []
  · subst he
    rfl
  · simp [entryAt?, he, empty, Keyed.get?] at hnames

/-- A change keeps a tree closed if no directory goes and every new entry is put in one. -/
theorem Closed.of_opens (closed : tree.Closed) (hopens : tree.Opens other)
    (hnew : ∀ names, (other.entryAt? names).isSome →
      (tree.entryAt? names).isSome ∨ tree.entryAt? names.dropLast = some .directory) :
    other.Closed := by
  intro names hnames
  rcases hnew names hnames with hold | habove
  · exact hopens _ (closed names hold)
  · exact hopens _ habove

theorem Closed.put {names : List String} {entry : FileEntry} (closed : tree.Closed)
    (hopens : tree.Opens (tree.put names entry)) (hnames : names ≠ [])
    (habove : tree.entryAt? names.dropLast = some .directory) : (tree.put names entry).Closed := by
  apply closed.of_opens hopens
  intro place hplace
  by_cases he : place = names
  · exact .inr (he ▸ habove)
  · rw [entryAt?_put _ _ _ _ hnames, if_neg he] at hplace
    exact .inl hplace

theorem step_eq_ok {names place : List String} {segment : String}
    (h : tree.step names segment = .ok place) :
    tree.entryAt? names = some .directory ∧
      place = if FilePath.isIdle segment then names
        else if segment = ".." then names.dropLast else names ++ [segment] := by
  unfold step at h
  cases he : tree.enter names with
  | error error => simp [he, bind, Except.bind] at h
  | ok _ =>
    refine ⟨enter_eq_ok_iff.1 he, ?_⟩
    simp only [he, bind, Except.bind] at h
    by_cases hidle : FilePath.isIdle segment = true
    · rw [if_pos hidle] at h ⊢
      exact (Except.ok.inj h).symm
    · by_cases hup : segment = ".."
      · rw [if_neg hidle, if_pos hup] at h ⊢
        exact (Except.ok.inj h).symm
      · rw [if_neg hidle, if_neg hup] at h ⊢
        split at h
        · cases h
        · exact (Except.ok.inj h).symm

theorem foldlM_cons_eq_ok {ε α β : Type} {f : β → α → Except ε β} {x : α} {xs : List α}
    {first last : β} :
    (x :: xs).foldlM f first = .ok last ↔ ∃ next, f first x = .ok next ∧
      xs.foldlM f next = .ok last := by
  rw [List.foldlM_cons]
  cases f first x <;> simp [bind, Except.bind]

theorem foldlM_concat_eq_ok {above names place : List String} {last : String} :
    (above ++ [last]).foldlM tree.step names = .ok place ↔
      ∃ mid, above.foldlM tree.step names = .ok mid ∧ tree.step mid last = .ok place := by
  induction above generalizing names with
  | nil =>
    rw [List.nil_append, foldlM_cons_eq_ok]
    simp [pure, Except.pure]
  | cons segment rest ih =>
    simp only [List.cons_append, foldlM_cons_eq_ok, ih]
    constructor
    · rintro ⟨next, hnext, mid, hmid, hlast⟩
      exact ⟨mid, ⟨next, hnext, hmid⟩, hlast⟩
    · rintro ⟨mid, ⟨next, hnext, hmid⟩, hlast⟩
      exact ⟨next, hnext, mid, hmid, hlast⟩

theorem above_of_step {names place : List String} {segment : String} (closed : tree.Closed)
    (h : tree.step names segment = .ok place) :
    tree.entryAt? place.dropLast = some .directory := by
  obtain ⟨hnames, rfl⟩ := step_eq_ok h
  have habove := closed.above hnames
  split
  · exact habove
  · split
    · exact closed.above habove
    · rwa [List.dropLast_concat]

theorem above_of_foldlM {segments names place : List String} (closed : tree.Closed)
    (hnames : tree.entryAt? names.dropLast = some .directory)
    (h : segments.foldlM tree.step names = .ok place) :
    tree.entryAt? place.dropLast = some .directory := by
  induction segments generalizing names with
  | nil =>
    cases h
    exact hnames
  | cons segment rest ih =>
    obtain ⟨next, hnext, hrest⟩ := foldlM_cons_eq_ok.1 h
    exact ih (above_of_step closed hnext) hrest

theorem locate_eq_ok {place : List String} (h : tree.locate path = .ok place) :
    path.segments.foldlM tree.step [] = .ok place := by
  unfold locate at h
  cases hc : path.check with
  | error error => simp [hc, bind, Except.bind] at h
  | ok _ => simpa [hc, bind, Except.bind] using h

theorem above_of_locate {place : List String} (closed : tree.Closed)
    (h : tree.locate path = .ok place) : tree.entryAt? place.dropLast = some .directory :=
  above_of_foldlM closed rfl (locate_eq_ok h)

/-- Nothing of a tree is gone or changed, and nothing new is a file. -/
structure Grows (tree other : FileTree) : Prop where
  kept {names : List String} {entry : FileEntry} :
    tree.entryAt? names = some entry → other.entryAt? names = some entry
  noFile {names : List String} {content : List UInt8} :
    other.entryAt? names = some (.file content) → tree.entryAt? names = some (.file content)

theorem Grows.refl (tree : FileTree) : tree.Grows tree := ⟨id, id⟩

theorem Grows.opens (h : tree.Grows other) : tree.Opens other :=
  fun _ => h.kept

theorem Grows.put {names : List String} (h : tree.Grows other) (hnames : names ≠ [])
    (hnone : other.entryAt? names = none) : tree.Grows (other.put names .directory) where
  kept {place entry} hentry := by
    have hkept := h.kept hentry
    rw [entryAt?_put _ _ _ _ hnames, if_neg, hkept]
    rintro rfl
    rw [hnone] at hkept
    cases hkept
  noFile {place content} hfile := by
    rw [entryAt?_put _ _ _ _ hnames] at hfile
    split at hfile
    · cases hfile
    · exact h.noFile hfile

theorem opens_put_directory {names : List String} (hnames : names ≠ []) :
    tree.Opens (tree.put names .directory) := by
  intro place hplace
  rw [entryAt?_put _ _ _ _ hnames]
  split
  · rfl
  · exact hplace

theorem preserves_ask {α : Type} {p : FileTree → Prop} (question : FileTree → Except IoError α) :
    (ask question).Preserves p :=
  fun _ h => h

theorem runFrom_ask_eq_ok {α : Type} {question : FileTree → Except IoError α} {value : α}
    {after : FileTree} :
    (ask question).runFrom tree = (.ok value, after) ↔
      question tree = .ok value ∧ tree = after := by
  rw [ask, Attempt.runFrom_ofFunction, Prod.mk.injEq]

theorem makeStep_error {names : List String} {segment : String} {error : IoError} {after : FileTree}
    (h : (makeStep names segment).runFrom tree = (.error error, after)) : after = tree := by
  rw [makeStep, Attempt.runFrom_bind, ask, Attempt.runFrom_ofFunction] at h
  cases hstep : tree.step names segment with
  | error cause =>
    rw [hstep] at h
    cases h
    rfl
  | ok place =>
    rw [hstep] at h
    dsimp only at h
    rw [Attempt.runFrom_bind, Attempt.runFrom_get] at h
    dsimp only at h
    rcases hentry : tree.entryAt? place with _ | entry
    · rw [hentry] at h
      cases h
    · rw [hentry] at h
      cases entry with
      | file content =>
        cases h
        rfl
      | directory => cases h

theorem makeStep_ok {names next : List String} {segment : String} {after : FileTree}
    (h : (makeStep names segment).runFrom tree = (.ok next, after)) :
    tree.step names segment = .ok next ∧
      (after = tree ∧ tree.entryAt? next = some .directory ∨
        next ≠ [] ∧ tree.entryAt? next = none ∧ after = tree.put next .directory) := by
  obtain ⟨found, mid, hasked, h⟩ := Attempt.runFrom_bind_eq_ok.1 h
  obtain ⟨hstep, rfl⟩ := runFrom_ask_eq_ok.1 hasked
  rw [Attempt.runFrom_bind, Attempt.runFrom_get] at h
  dsimp only at h
  rcases hentry : tree.entryAt? found with _ | entry
  · rw [hentry] at h
    cases h
    refine ⟨hstep, .inr ⟨?_, hentry, rfl⟩⟩
    rintro rfl
    cases hentry
  · rw [hentry] at h
    cases entry with
    | file content => cases h
    | directory =>
      cases h
      exact ⟨hstep, .inl ⟨rfl, hentry⟩⟩

theorem preserves_makeStep (base : FileTree) (names : List String) (segment : String) :
    (makeStep names segment).Preserves fun tree => tree.Closed ∧ base.Grows tree := by
  intro tree ⟨closed, grows⟩
  rcases hrun : (makeStep names segment).runFrom tree with ⟨error | next, after⟩
  · obtain rfl := makeStep_error hrun
    exact ⟨closed, grows⟩
  · obtain ⟨hstep, ⟨rfl, -⟩ | ⟨hne, hentry, rfl⟩⟩ := makeStep_ok hrun
    · exact ⟨closed, grows⟩
    · have habove := above_of_step closed hstep
      exact ⟨closed.put (opens_put_directory hne) hne habove, grows.put hne hentry⟩

theorem preserves_createDirs (base : FileTree) (path : FilePath) :
    (createDirs path).Preserves fun tree => tree.Closed ∧ base.Grows tree := by
  rw [createDirs]
  split
  · exact .pure _
  · refine .bind (preserves_ask _) fun _ => ?_
    refine .bind (.foldlM (preserves_makeStep base) _ _) fun _ => ?_
    exact .bind (preserves_ask _) fun _ => preserves_ask _

/-- Where the way never leads up, a directory that is left on it was there if what is found at the end
was: the way is the same before new directories are made. -/
theorem foldlM_step_of_grows {segments names place : List String} (closed : tree.Closed)
    (grows : tree.Grows other) (hup : ".." ∉ segments)
    (h : segments.foldlM other.step names = .ok place) (hplace : (tree.entryAt? place).isSome) :
    (tree.entryAt? names).isSome ∧ segments.foldlM tree.step names = .ok place := by
  induction segments generalizing names with
  | nil =>
    cases h
    exact ⟨hplace, rfl⟩
  | cons segment rest ih =>
    obtain ⟨next, hnext, hrest⟩ := foldlM_cons_eq_ok.1 h
    obtain ⟨hsome, hfold⟩ := ih (fun he => hup (List.mem_cons_of_mem _ he)) hrest
    obtain ⟨hother, hcases⟩ := step_eq_ok hnext
    have hne : segment ≠ ".." := fun he => hup (he ▸ List.mem_cons_self)
    have hnames : tree.entryAt? names = some .directory := by
      by_cases hidle : FilePath.isIdle segment
      · obtain rfl : next = names := by rw [hcases, if_pos hidle]
        obtain ⟨entry, hentry⟩ := Option.isSome_iff_exists.1 hsome
        rw [hentry, ← hother, grows.kept hentry]
      · obtain rfl : next = names ++ [segment] := by rw [hcases, if_neg hidle, if_neg hne]
        simpa using closed _ hsome
    have hstep : tree.step names segment = .ok next := by
      unfold step at hnext ⊢
      rwa [enter_eq_ok_iff.2 hnames, ← enter_eq_ok_iff.2 hother]
    exact ⟨by rw [hnames]; rfl, foldlM_cons_eq_ok.2 ⟨next, hstep, hfold⟩⟩

/-- The path of a file never leads up, or leads to a place. -/
def IsPlain (path : FilePath) (tree : FileTree) : Prop :=
  ".." ∉ path.segments ∨ ∃ place, tree.locate path = .ok place

theorem locate_of_grows {place : List String} (closed : tree.Closed) (plain : IsPlain path tree)
    (grows : tree.Grows other) (h : other.locate path = .ok place)
    (hplace : (tree.entryAt? place).isSome) : tree.locate path = .ok place := by
  rcases plain with hup | ⟨found, hfound⟩
  · obtain ⟨-, hfold⟩ := foldlM_step_of_grows closed grows hup (locate_eq_ok h) hplace
    unfold locate at h ⊢
    cases hc : path.check with
    | error error => simp [hc, bind, Except.bind] at h
    | ok _ => simpa [hc, bind, Except.bind] using hfold
  · rw [grows.opens.locate hfound] at h
    rwa [hfound]

theorem readFile_of_grows (closed : tree.Closed) (plain : IsPlain path tree)
    (grows : tree.Grows other) (content : List UInt8) :
    other.readFile path = .ok content ↔ tree.readFile path = .ok content := by
  rw [readFile_eq_ok, readFile_eq_ok]
  constructor
  · rintro ⟨place, hlocate, hfile⟩
    have hold := grows.noFile hfile
    exact ⟨place, locate_of_grows closed plain grows hlocate (by rw [hold]; rfl), hold⟩
  · rintro ⟨place, hlocate, hfile⟩
    exact ⟨place, grows.opens.locate hlocate, grows.kept hfile⟩

theorem segments_temporary (path : FilePath) :
    ∃ above last, path.segments = above ++ [last] ∧
      path.temporary.segments = above ++ [last ++ ".tmp"] := by
  have htmp : '/' ∉ ".tmp".toList := by decide
  obtain ⟨above, last, hpath, htemporary⟩ :=
    Text.splitOn_append_right path.text.toList htmp
  refine ⟨above.map String.ofList, String.ofList last, ?_, ?_⟩
  · rw [FilePath.segments, hpath]
    simp
  · rw [FilePath.segments, FilePath.temporary, String.toList_append, htemporary]
    simp [String.ofList_append]

theorem temporary_isName (last : String) :
    FilePath.isIdle (last ++ ".tmp") = false ∧ last ++ ".tmp" ≠ ".." := by
  have hlength : 4 ≤ (last ++ ".tmp").toList.length := by
    simp
  have hshort : ∀ short : String, short.toList.length < 4 → last ++ ".tmp" ≠ short := by
    intro short hs he
    rw [he] at hlength
    omega
  constructor
  · simp [FilePath.isIdle, hshort "" (by decide), hshort "." (by decide)]
  · exact hshort ".." (by decide)

theorem locate_temporary {prepared : List String}
    (h : tree.locate path.temporary = .ok prepared) :
    prepared ≠ [] ∧ ∀ place, tree.locate path = .ok place → place ≠ prepared := by
  obtain ⟨above, last, hpath, htemporary⟩ := segments_temporary path
  have hprepared := locate_eq_ok h
  rw [htemporary, foldlM_concat_eq_ok] at hprepared
  obtain ⟨names, habove, hstep⟩ := hprepared
  obtain ⟨hidle, hup⟩ := temporary_isName last
  obtain rfl : prepared = names ++ [last ++ ".tmp"] := by
    simpa [hidle, hup] using (step_eq_ok hstep).2
  refine ⟨by simp, fun place hplace he => ?_⟩
  have hfold := locate_eq_ok hplace
  rw [hpath, foldlM_concat_eq_ok] at hfold
  obtain ⟨_, habove', hlast⟩ := hfold
  obtain rfl := Except.ok.inj (habove.symm.trans habove')
  have hcases := (step_eq_ok hlast).2
  rw [he] at hcases
  have hlength := congrArg List.length hcases
  split at hlength
  · simp at hlength
  · split at hlength
    · simp at hlength
      omega
    · next h₁ h₂ =>
      rw [if_neg h₁, if_neg h₂] at hcases
      have hlasts := List.append_cancel_left hcases
      have := congrArg (fun names => (names.map fun name : String => name.toList.length)) hlasts
      simp at this

theorem step_of_directory {names : List String} {segment : String}
    (h : tree.entryAt? names = some .directory) (hother : other.entryAt? names = some .directory) :
    other.step names segment = tree.step names segment := by
  rw [step, step, enter_eq_ok_iff.2 h, enter_eq_ok_iff.2 hother]

/-- Where a file is put beside another one, the way to that one is as before. -/
theorem locate_put_temporary {prepared : List String} (content : List UInt8)
    (hlocate : tree.locate path.temporary = .ok prepared)
    (hplace : tree.entryAt? prepared ≠ some .directory) :
    (tree.put prepared (.file content)).locate path = tree.locate path := by
  obtain ⟨above, last, hpath, htemporary⟩ := segments_temporary path
  have hprepared := locate_eq_ok hlocate
  rw [htemporary, foldlM_concat_eq_ok] at hprepared
  obtain ⟨names, habove, hstep⟩ := hprepared
  have hopens := opens_put_file content hplace
  have hnames := (step_eq_ok hstep).1
  have hlast : (tree.put prepared (.file content)).step names last = tree.step names last :=
    step_of_directory hnames (hopens names hnames)
  rw [locate, locate, hpath, List.foldlM_append, List.foldlM_append, habove,
    hopens.foldlM_step habove]
  simp only [List.foldlM_cons, List.foldlM_nil, bind, Except.bind, hlast]

theorem readFile_put_temporary {prepared : List String} {content : List UInt8}
    (hlocate : tree.locate path.temporary = .ok prepared)
    (hplace : tree.entryAt? prepared ≠ some .directory) :
    (tree.put prepared (.file content)).readFile path = tree.readFile path := by
  obtain ⟨hne, hapart⟩ := locate_temporary hlocate
  rw [readFile, readFile, locate_put_temporary content hlocate hplace]
  cases hfound : tree.locate path with
  | error error => rfl
  | ok place =>
    simp only [bind, Except.bind]
    rw [entryAt?_put _ _ _ _ hne, if_neg (hapart place hfound)]

theorem runFrom_change (next : FileTree → Except IoError FileTree) (tree : FileTree) :
    (change next).runFrom tree =
      match next tree with
      | .ok after => (.ok (), after)
      | .error error => (.error error, tree) := rfl

theorem runFrom_change_eq_ok {next : FileTree → Except IoError FileTree} {after : FileTree} :
    (change next).runFrom tree = (.ok (), after) ↔ next tree = .ok after := by
  rw [runFrom_change]
  cases next tree <;> simp

theorem runFrom_change_eq_error {next : FileTree → Except IoError FileTree} {error : IoError}
    {after : FileTree} (h : (change next).runFrom tree = (.error error, after)) : after = tree := by
  rw [runFrom_change] at h
  cases hn : next tree <;> rw [hn] at h <;> cases h
  rfl

theorem preserves_change {next : FileTree → Except IoError FileTree} {p : FileTree → Prop}
    (h : ∀ tree after, p tree → next tree = .ok after → p after) : (change next).Preserves p := by
  intro tree htree
  rw [runFrom_change]
  cases hn : next tree with
  | ok after => exact h tree after htree hn
  | error error => exact htree

theorem writeFile_eq_ok {content : List UInt8} {after : FileTree} :
    tree.writeFile path content = .ok after ↔
      ∃ names, tree.locate path = .ok names ∧ tree.entryAt? names ≠ some .directory ∧
        tree.put names (.file content) = after := by
  unfold writeFile
  cases hl : tree.locate path with
  | error error => simp [bind, Except.bind]
  | ok names =>
    rcases he : tree.entryAt? names with _ | entry
    · simp [bind, Except.bind, he]
    · cases entry <;> simp [bind, Except.bind, he]

theorem opens_drop_file {names : List String} {content : List UInt8}
    (h : tree.entryAt? names = some (.file content)) : tree.Opens (tree.drop names) := by
  intro place hplace
  have hnames : names ≠ [] := by
    rintro rfl
    cases h
  rw [entryAt?_drop _ _ _ hnames, if_neg, hplace]
  rintro rfl
  rw [h] at hplace
  cases hplace

theorem renameFile_eq_ok {source target : FilePath} {after : FileTree} :
    tree.renameFile source target = .ok after ↔
      ∃ names content, tree.locate source = .ok names ∧
        tree.entryAt? names = some (.file content) ∧
        (tree.drop names).writeFile target content = .ok after := by
  unfold renameFile removeFile
  cases hr : tree.readFile source with
  | error error =>
    simp only [bind, Except.bind, reduceCtorEq, false_iff, not_exists, not_and]
    intro names content hl he
    rw [readFile_eq_ok.2 ⟨names, hl, he⟩] at hr
    cases hr
  | ok content =>
    obtain ⟨names, hl, he⟩ := readFile_eq_ok.1 hr
    simp only [hl, bind, Except.bind, pure, Except.pure]
    constructor
    · intro h
      exact ⟨names, content, rfl, he, h⟩
    · rintro ⟨_, _, hl', he', h⟩
      cases hl'
      rw [he] at he'
      cases he'
      exact h

theorem Closed.writeFile {content : List UInt8} {after : FileTree} (closed : tree.Closed)
    (h : tree.writeFile path content = .ok after) : after.Closed ∧ tree.Opens after := by
  obtain ⟨names, hl, he, rfl⟩ := writeFile_eq_ok.1 h
  have hopens := opens_put_file content he
  have hnames : names ≠ [] := by
    rintro rfl
    exact he rfl
  exact ⟨closed.put hopens hnames (above_of_locate closed hl), hopens⟩

theorem Closed.renameFile {source target : FilePath} {after : FileTree} (closed : tree.Closed)
    (h : tree.renameFile source target = .ok after) : after.Closed ∧ tree.Opens after := by
  obtain ⟨names, content, -, he, hw⟩ := renameFile_eq_ok.1 h
  have hdrop := opens_drop_file he
  have hnames : names ≠ [] := by
    rintro rfl
    cases he
  have hclosed : (tree.drop names).Closed := by
    apply closed.of_opens hdrop
    intro place hplace
    rw [entryAt?_drop _ _ _ hnames] at hplace
    split at hplace
    · cases hplace
    · exact .inl hplace
  obtain ⟨hafter, hopens⟩ := hclosed.writeFile hw
  exact ⟨hafter, fun place hplace => hopens place (hdrop place hplace)⟩

theorem IsPlain.of_opens (h : IsPlain path tree) (hopens : tree.Opens other) :
    IsPlain path other :=
  h.imp_right fun ⟨place, hplace⟩ => ⟨place, hopens.locate hplace⟩

/-- What is written is read, whatever else the trees in question have in common. -/
theorem faithful {Sound : FileTree → Prop}
    (hdirs : ∀ parent, path.parent? = some parent → (disk.createDirs parent).Preserves Sound)
    (hwrite : ∀ bytes tree after, Sound tree → tree.writeFile path.temporary bytes = .ok after →
      Sound after)
    (hrename : ∀ tree after, Sound tree → tree.renameFile path.temporary path = .ok after →
      Sound after) : disk.Faithful path Sound where
  read_leaves _ := rfl
  sound_createDirs := hdirs _
  sound_write bytes := preserves_change (hwrite bytes)
  sound_rename := preserves_change hrename
  content_write _ h := by
    rw [Disk.contentAt?_eq_some]
    exact readFile_of_writeFile (runFrom_change_eq_ok.1 h)
  content_rename _ h := by
    obtain ⟨names, content, hl, he, hw⟩ := renameFile_eq_ok.1 (runFrom_change_eq_ok.1 h)
    rw [contentAt?_disk, contentAt?_disk, readFile_of_writeFile hw,
      readFile_eq_ok.2 ⟨names, hl, he⟩]

theorem steady (path : FilePath) :
    disk.Steady path fun tree => tree.Closed ∧ IsPlain path tree where
  toFaithful := by
    apply faithful
    · intro parent _ tree ⟨closed, plain⟩
      obtain ⟨hclosed, grows⟩ := preserves_createDirs tree parent tree ⟨closed, .refl tree⟩
      exact ⟨hclosed, plain.of_opens grows.opens⟩
    · exact fun _ _ _ ⟨closed, plain⟩ h => (closed.writeFile h).imp_right plain.of_opens
    · exact fun _ _ ⟨closed, plain⟩ h => (closed.renameFile h).imp_right plain.of_opens
  createDirs_unseen {parent tree} _ sound := by
    obtain ⟨closed, plain⟩ := sound
    obtain ⟨-, grows⟩ := preserves_createDirs tree parent tree ⟨closed, .refl tree⟩
    exact contentAt?_eq_of_reads (readFile_of_grows closed plain grows)
  write_unseen bytes {tree} _ := by
    change disk.contentAt? path ((change (·.writeFile path.temporary bytes)).runFrom tree).2 = _
    rw [runFrom_change]
    cases hw : tree.writeFile path.temporary bytes with
    | error error => rfl
    | ok after =>
      obtain ⟨prepared, hl, he, rfl⟩ := writeFile_eq_ok.1 hw
      rw [contentAt?_disk, contentAt?_disk, readFile_put_temporary hl he]
  rename_failed _ h := by
    rw [runFrom_change_eq_error h]

/-- A path at which there is a file leads to a place, whatever it looks like. -/
theorem settles (path : FilePath) :
    disk.Settles path Closed fun tree => tree.Closed ∧ IsPlain path tree where
  faithful := by
    apply faithful
    · exact fun parent _ tree closed =>
        (preserves_createDirs tree parent tree ⟨closed, .refl tree⟩).1
    · exact fun _ _ _ closed h => (closed.writeFile h).1
    · exact fun _ _ closed h => (closed.renameFile h).1
  steady := steady path
  sound_of_read {tree bytes} closed hcontent := by
    rw [contentAt?_disk] at hcontent
    cases hread : tree.readFile path with
    | error error =>
      rw [hread] at hcontent
      cases hcontent
    | ok content =>
      obtain ⟨place, hlocate, -⟩ := readFile_eq_ok.1 hread
      exact ⟨closed, .inr ⟨place, hlocate⟩⟩

end Gatehouse.FileTree
