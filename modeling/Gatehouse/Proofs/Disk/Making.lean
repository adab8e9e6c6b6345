import Gatehouse.Proofs.Disk.Reliable
import Mathlib.Data.List.DropRight

set_option autoImplicit false

/-!
# Directories that are made in part

The directories above a file are made one after the other, and the last ones may be missing in the
end. As long as what is read at the path of the file is the same for every number of them, nothing
that is done to prepare a new content shows there.
-/

namespace Gatehouse

namespace FilePath

variable {path parent : FilePath}

theorem slash_not_mem {segment : String} (h : segment ∈ path.segments) :
    '/' ∉ segment.toList := by
  obtain ⟨piece, hpiece, rfl⟩ := List.mem_map.1 h
  rw [String.toList_ofList]
  exact Text.not_mem_of_mem_splitOn hpiece

theorem segments_ofSegments {segments : List String} (hne : segments ≠ [])
    (h : ∀ segment ∈ segments, '/' ∉ segment.toList) :
    (ofSegments segments).segments = segments := by
  induction segments with
  | nil => exact absurd rfl hne
  | cons first rest ih =>
    have hfirst := h first List.mem_cons_self
    cases rest with
    | nil =>
      simp [ofSegments, FilePath.segments, String.intercalate_singleton,
        Text.splitOn_of_not_mem _ _ hfirst]
    | cons second rest =>
      have hrest := ih (List.cons_ne_nil _ _) fun s hs => h s (List.mem_cons_of_mem _ hs)
      simp only [ofSegments, FilePath.segments] at hrest ⊢
      rw [String.intercalate_cons_cons, String.append_assoc, String.toList_append,
        String.toList_append]
      have hslash : "/".toList = ['/'] := rfl
      rw [hslash, List.singleton_append, Text.splitOn_append_cons _ _ _ hfirst, List.map_cons,
        hrest, String.ofList_toList]

theorem isPrefix_dropIdle (segments : List String) : dropIdle segments <+: segments := by
  rw [← List.reverse_suffix, dropIdle, List.reverse_reverse]
  exact List.dropWhile_suffix _

theorem segments_parent (h : path.parent? = some parent) :
    parent.segments = dropIdle (dropIdle path.segments).dropLast ∧ parent.segments ≠ [] := by
  rw [parent?] at h
  split at h
  · cases h
  · next hne =>
    have hlast := List.dropLast_prefix (dropIdle path.segments)
    have hslash : ∀ segment ∈ dropIdle (dropIdle path.segments).dropLast,
        '/' ∉ segment.toList := fun segment hs =>
      slash_not_mem ((isPrefix_dropIdle _).subset (hlast.subset ((isPrefix_dropIdle _).subset hs)))
    cases h
    rw [segments_ofSegments hne hslash]
    exact ⟨rfl, hne⟩

theorem isPrefix_parent {above : List String} {last : String}
    (hpath : path.segments = above ++ [last]) (h : path.parent? = some parent) :
    parent.segments <+: above := by
  rw [(segments_parent h).1]
  refine (isPrefix_dropIdle _).trans ?_
  have hbody := isPrefix_dropIdle path.segments
  have hlast := List.dropLast_prefix (dropIdle path.segments)
  rw [hpath, List.prefix_concat_iff] at hbody
  rw [hpath] at hlast ⊢
  rcases hbody with hbody | hbody
  · have hdrop : (dropIdle (above ++ [last])).dropLast = above := by
      rw [hbody, List.dropLast_concat]
    exact hdrop.symm ▸ List.prefix_refl above
  · exact hlast.trans hbody

/-- The segments at which directories are made, those above first. -/
def makeable (path : FilePath) : List String :=
  let body := dropIdle path.segments
  if (path.segments.drop body.length).contains "." then body.dropLast else body

theorem isPrefix_makeable (path : FilePath) : path.makeable <+: path.segments := by
  have hlast := List.dropLast_prefix (dropIdle path.segments)
  rw [makeable]
  split
  · exact hlast.trans (isPrefix_dropIdle _)
  · exact isPrefix_dropIdle _

end FilePath

namespace FileTree

variable {tree other : FileTree} {path parent : FilePath} {names : List String}

/-- Makes the first directories on a path, as far as nothing is in the way. -/
def makeDirs (path : FilePath) (n : Nat) (tree : FileTree) : FileTree :=
  match path.check with
  | .ok _ => (((path.makeable.take n).foldlM makeStep []).runFrom tree).2
  | .error _ => tree

theorem createDirs_leaves (path : FilePath) (tree : FileTree) :
    ∃ n, ((createDirs path).runFrom tree).2 = makeDirs path n tree := by
  refine ⟨path.makeable.length, ?_⟩
  rw [createDirs, makeDirs, List.take_length]
  by_cases hempty : path.text = ""
  · have hcheck : path.check = .error .notFound := by
      rw [FilePath.check, hempty]
      rfl
    rw [if_pos hempty, hcheck]
    rfl
  · rw [if_neg hempty]
    simp only
    rw [← FilePath.makeable]
    simp only [Attempt.runFrom_bind, ask, Attempt.runFrom_ofFunction]
    cases path.check with
    | error error => rfl
    | ok _ =>
      dsimp only
      rcases (path.makeable.foldlM makeStep []).runFrom tree with ⟨error | found, made⟩
      · rfl
      · dsimp only
        cases (path.segments.drop path.makeable.length).foldlM made.step found <;> rfl

theorem opens_makeSteps (base : FileTree) (segments names : List String) :
    (segments.foldlM makeStep names).Preserves fun tree => base.Opens tree := by
  refine .foldlM (fun names segment tree hopens => ?_) segments names
  rcases hrun : (makeStep names segment).runFrom tree with ⟨error | next, after⟩
  · rw [makeStep_error hrun]
    exact hopens
  · exact fun place hplace => (enterStep_of_makeStep hrun).2 place (hopens place hplace)

theorem runFrom_makeSteps_cons (segment : String) (rest : List String) :
    ((segment :: rest).foldlM makeStep names).runFrom tree =
      match (makeStep names segment).runFrom tree with
      | (.ok next, after) => (rest.foldlM makeStep next).runFrom after
      | (.error error, after) => (.error error, after) := by
  rw [List.foldlM_cons, Attempt.runFrom_bind]
  rcases (makeStep names segment).runFrom tree with ⟨outcome, after⟩
  cases outcome <;> rfl

/-- Steps that have been made are made once more, and the next ones as if for the first time. -/
theorem makeSteps_again (segments more names : List String) (tree : FileTree) :
    ((segments ++ more).foldlM makeStep names).runFrom
        ((segments.foldlM makeStep names).runFrom tree).2 =
      ((segments ++ more).foldlM makeStep names).runFrom tree := by
  induction segments generalizing names tree with
  | nil => rfl
  | cons segment rest ih =>
    rw [List.cons_append, runFrom_makeSteps_cons, runFrom_makeSteps_cons, runFrom_makeSteps_cons]
    rcases hrun : (makeStep names segment).runFrom tree with ⟨error | next, after⟩
    · obtain rfl := makeStep_error hrun
      rw [hrun]
    · have hopens := opens_makeSteps after rest next after fun _ => id
      have hentered := hopens.enterStep (enterStep_of_makeStep hrun).1
      dsimp only
      rw [runFrom_makeStep_of_enterStep hentered]
      exact ih next after

theorem makeSteps_before (segments more names : List String) (tree : FileTree) :
    ((segments.foldlM makeStep names).runFrom
        (((segments ++ more).foldlM makeStep names).runFrom tree).2).2 =
      (((segments ++ more).foldlM makeStep names).runFrom tree).2 := by
  induction segments generalizing names tree with
  | nil => rfl
  | cons segment rest ih =>
    rw [List.cons_append, runFrom_makeSteps_cons, runFrom_makeSteps_cons]
    rcases hrun : (makeStep names segment).runFrom tree with ⟨error | next, after⟩
    · obtain rfl := makeStep_error hrun
      rw [hrun]
    · have hopens := opens_makeSteps after (rest ++ more) next after fun _ => id
      have hentered := hopens.enterStep (enterStep_of_makeStep hrun).1
      dsimp only
      rw [runFrom_makeStep_of_enterStep hentered]
      exact ih next after

theorem makeDirs_makeDirs (path : FilePath) (m n : Nat) (tree : FileTree) :
    makeDirs path m (makeDirs path n tree) = makeDirs path (max m n) tree := by
  unfold makeDirs
  cases path.check with
  | error error => rfl
  | ok _ =>
    dsimp only
    rcases Nat.le_total m n with hle | hle
    · obtain ⟨more, hmore⟩ : path.makeable.take m <+: path.makeable.take n :=
        List.take_prefix_take_left hle
      rw [Nat.max_eq_right hle, ← hmore]
      exact makeSteps_before _ more [] tree
    · obtain ⟨more, hmore⟩ : path.makeable.take n <+: path.makeable.take m :=
        List.take_prefix_take_left hle
      rw [Nat.max_eq_left hle, ← hmore]
      exact congrArg Prod.snd (makeSteps_again _ more [] tree)

/-- What is read at a path is the same, however many of the missing directories above are made. -/
def Undisturbed (path : FilePath) (tree : FileTree) : Prop :=
  ∀ parent n, path.parent? = some parent →
    (makeDirs parent n tree).readFile path = tree.readFile path

theorem Undisturbed.makeDirs (h : Undisturbed path tree) (hparent : path.parent? = some parent)
    (n : Nat) : Undisturbed path (makeDirs parent n tree) := by
  intro other m hother
  obtain rfl := Option.some.inj (hparent.symm.trans hother)
  rw [makeDirs_makeDirs, h parent _ hparent, h parent n hparent]

theorem enterSteps_of_steps {segments place : List String}
    (h : segments.foldlM tree.step names = .ok place)
    (hplace : tree.entryAt? place = some .directory) :
    segments.foldlM tree.enterStep names = .ok place := by
  induction segments generalizing names with
  | nil => exact h
  | cons segment rest ih =>
    obtain ⟨next, hnext, hrest⟩ := foldlM_cons_eq_ok.1 h
    have hentry : tree.entryAt? next = some .directory := by
      cases rest with
      | nil =>
        cases hrest
        exact hplace
      | cons second rest =>
        obtain ⟨_, hsecond, -⟩ := foldlM_cons_eq_ok.1 hrest
        exact (step_eq_ok hsecond).1
    exact foldlM_cons_eq_ok.2 ⟨next, enterStep_eq_ok.2 ⟨hnext, hentry⟩, ih hrest⟩

theorem enterSteps_of_isPrefix {segments more place : List String} (hmore : segments <+: more)
    (h : more.foldlM tree.enterStep names = .ok place) :
    ∃ mid, segments.foldlM tree.enterStep names = .ok mid := by
  obtain ⟨rest, rfl⟩ := hmore
  induction segments generalizing names with
  | nil => exact ⟨names, rfl⟩
  | cons segment segments ih =>
    obtain ⟨next, hnext, hrest⟩ := foldlM_cons_eq_ok.1 h
    obtain ⟨mid, hmid⟩ := ih hrest
    exact ⟨mid, foldlM_cons_eq_ok.2 ⟨next, hnext, hmid⟩⟩

theorem makeDirs_of_temporary {prepared : List String}
    (h : tree.locate path.temporary = .ok prepared) (hparent : path.parent? = some parent)
    (n : Nat) : makeDirs parent n tree = tree := by
  obtain ⟨above, last, hpath, htemporary⟩ := segments_temporary path
  have hprepared := locate_eq_ok h
  rw [htemporary, foldlM_concat_eq_ok] at hprepared
  obtain ⟨names, habove, hstep⟩ := hprepared
  have hentered := enterSteps_of_steps habove (step_eq_ok hstep).1
  have hmade : parent.makeable.take n <+: above :=
    ((List.take_prefix n _).trans (FilePath.isPrefix_makeable parent)).trans
      (FilePath.isPrefix_parent hpath hparent)
  obtain ⟨mid, hmid⟩ := enterSteps_of_isPrefix hmade hentered
  rw [makeDirs]
  cases parent.check with
  | error error => rfl
  | ok _ =>
    dsimp only
    rw [runFrom_makeSteps_of_enterSteps hmid]

theorem undisturbed_of_temporary {prepared : List String}
    (h : tree.locate path.temporary = .ok prepared) : Undisturbed path tree := by
  intro parent n hparent
  rw [makeDirs_of_temporary h hparent]

def depth (segments : List String) : Nat :=
  segments.countP fun segment => !FilePath.isIdle segment

theorem depth_parent (hparent : path.parent? = some parent) :
    depth parent.segments < depth path.segments := by
  obtain ⟨hsegments, hne⟩ := FilePath.segments_parent hparent
  have hbody : FilePath.dropIdle path.segments ≠ [] := by
    intro hnil
    rw [hsegments, hnil] at hne
    exact hne rfl
  have hlast : FilePath.isIdle ((FilePath.dropIdle path.segments).getLast hbody) = false :=
    Bool.eq_false_iff.2 (List.rdropWhile_last_not FilePath.isIdle path.segments hbody)
  calc depth parent.segments
    _ ≤ depth (FilePath.dropIdle path.segments).dropLast := by
      rw [hsegments]
      exact (FilePath.isPrefix_dropIdle _).countP_le
    _ < depth ((FilePath.dropIdle path.segments).dropLast ++
        [(FilePath.dropIdle path.segments).getLast hbody]) := by
      simp [depth, List.countP_append, hlast]
    _ ≤ depth path.segments := by
      rw [List.dropLast_append_getLast]
      exact (FilePath.isPrefix_dropIdle _).countP_le

theorem length_of_step {segment : String} {next : List String}
    (h : tree.step names segment = .ok next) : next.length ≤ names.length + depth [segment] := by
  rw [(step_eq_ok h).2]
  by_cases hidle : FilePath.isIdle segment = true
  · simp [hidle]
  · by_cases hup : segment = ".."
    · rw [if_neg hidle, if_pos hup, List.length_dropLast]
      omega
    · simp [hidle, hup, depth]

theorem entryAt?_makeSteps (segments names place : List String) (tree : FileTree) :
    ((segments.foldlM makeStep names).runFrom tree).2.entryAt? place = tree.entryAt? place ∨
      place.length ≤ names.length + depth segments := by
  induction segments generalizing names tree with
  | nil => exact .inl rfl
  | cons segment rest ih =>
    rw [runFrom_makeSteps_cons]
    rcases hrun : (makeStep names segment).runFrom tree with ⟨error | next, after⟩
    · rw [makeStep_error hrun]
      exact .inl rfl
    · obtain ⟨hstep, hafter⟩ := makeStep_ok hrun
      have hlength := length_of_step hstep
      have hdepth : depth (segment :: rest) = depth [segment] + depth rest := by
        rw [depth, ← List.singleton_append, List.countP_append]
        rfl
      rcases ih next after with hsame | hdeep
      · dsimp only
        rw [hsame]
        rcases hafter with ⟨rfl, -⟩ | ⟨hne, -, rfl⟩
        · exact .inl rfl
        · rw [entryAt?_put _ _ _ _ hne]
          by_cases hplace : place = next
          · right
            rw [hplace]
            omega
          · exact .inl (if_neg hplace)
      · right
        omega

/-- The path never leads up, and none of its names is too long. -/
structure IsTame (path : FilePath) : Prop where
  up : ".." ∉ path.segments
  short : ∀ segment ∈ path.segments, segment.utf8ByteSize ≤ FilePath.maxNameSize

theorem length_of_steps {segments place : List String} (hup : ".." ∉ segments)
    (h : segments.foldlM tree.step names = .ok place) :
    place.length = names.length + depth segments := by
  induction segments generalizing names with
  | nil =>
    cases h
    rfl
  | cons segment rest ih =>
    rw [List.mem_cons, not_or] at hup
    obtain ⟨next, hnext, hrest⟩ := foldlM_cons_eq_ok.1 h
    rw [ih hup.2 hrest, (step_eq_ok hnext).2]
    by_cases hidle : FilePath.isIdle segment = true
    · simp [hidle, depth]
    · simp [hidle, depth, Ne.symm hup.1]
      omega

variable {segments : List String}

theorem step_of_missing {segment : String} (h : tree.entryAt? names = none) :
    tree.step names segment = .error .notFound := by
  rw [step, enter, h]
  rfl

theorem steps_from_new (closed : tree.Closed) (grows : tree.Grows other) (hup : ".." ∉ segments)
    (hshort : ∀ segment ∈ segments, segment.utf8ByteSize ≤ FilePath.maxNameSize)
    (hnames : tree.entryAt? names = none) :
    segments.foldlM other.step names = .error .notFound ∨
      ∃ place, segments.foldlM other.step names = .ok place ∧ tree.entryAt? place = none := by
  induction segments generalizing names with
  | nil => exact .inr ⟨names, rfl, hnames⟩
  | cons segment rest ih =>
    rw [List.mem_cons, not_or] at hup
    rw [List.forall_mem_cons] at hshort
    rw [List.foldlM_cons]
    rcases hother : other.entryAt? names with _ | entry
    · left
      rw [step_of_missing hother]
      rfl
    · cases entry with
      | file content =>
        rw [grows.noFile hother] at hnames
        cases hnames
      | directory =>
        have hstep : other.step names segment =
            .ok (if FilePath.isIdle segment then names else names ++ [segment]) := by
          have hfits : ¬ FilePath.maxNameSize < segment.utf8ByteSize := Nat.not_lt.2 hshort.1
          rw [step, enter_eq_ok_iff.2 hother]
          simp only [if_neg (Ne.symm hup.1), if_neg hfits, bind, Except.bind]
          split <;> rfl
        rw [hstep]
        refine ih hup.2 hshort.2 ?_
        split
        · exact hnames
        · cases hnew : tree.entryAt? (names ++ [segment]) with
          | none => rfl
          | some entry =>
            have habove := closed (names ++ [segment]) (by rw [hnew]; rfl)
            rw [List.dropLast_concat, hnames] at habove
            cases habove

/-- More directories make no difference to a way, or it now leads on from a missing one. -/
theorem steps_of_grows (closed : tree.Closed) (grows : tree.Grows other) (hup : ".." ∉ segments)
    (hshort : ∀ segment ∈ segments, segment.utf8ByteSize ≤ FilePath.maxNameSize) :
    segments.foldlM other.step names = segments.foldlM tree.step names ∨
      segments.foldlM tree.step names = .error .notFound ∧
        ∃ place, segments.foldlM other.step names = .ok place ∧ tree.entryAt? place = none := by
  induction segments generalizing names with
  | nil => exact .inl rfl
  | cons segment rest ih =>
    rcases hentry : tree.entryAt? names with _ | entry
    · have htree : (segment :: rest).foldlM tree.step names = .error .notFound := by
        rw [List.foldlM_cons, step_of_missing hentry]
        rfl
      rcases steps_from_new closed grows hup hshort hentry with hother | hother
      · exact .inl (hother.trans htree.symm)
      · exact .inr ⟨htree, hother⟩
    · rw [List.foldlM_cons, List.foldlM_cons]
      have hother := grows.kept hentry
      cases entry with
      | file content =>
        left
        rw [step, step, enter, enter, hentry, hother]
        rfl
      | directory =>
        rw [List.mem_cons, not_or] at hup
        rw [List.forall_mem_cons] at hshort
        rw [step_of_directory hentry hother]
        cases tree.step names segment with
        | error error => exact .inl rfl
        | ok next => exact ih hup.2 hshort.2

theorem makeDirs_grows (closed : tree.Closed) (path : FilePath) (n : Nat) :
    tree.Grows (makeDirs path n tree) := by
  rw [makeDirs]
  cases path.check with
  | error error => exact .refl tree
  | ok _ =>
    have hmade := Attempt.Preserves.foldlM (preserves_makeStep tree) (path.makeable.take n) []
    exact (hmade tree ⟨closed, .refl tree⟩).2

theorem entryAt?_makeDirs {place : List String} (hparent : path.parent? = some parent) (n : Nat)
    (hdepth : place.length = depth path.segments) :
    (makeDirs parent n tree).entryAt? place = tree.entryAt? place := by
  rw [makeDirs]
  cases parent.check with
  | error error => rfl
  | ok _ =>
    have hmade : depth (parent.makeable.take n) ≤ depth parent.segments :=
      ((List.take_prefix n _).trans (FilePath.isPrefix_makeable parent)).countP_le
    have hbelow := depth_parent hparent
    rcases entryAt?_makeSteps (parent.makeable.take n) [] place tree with hsame | hdeep
    · exact hsame
    · rw [List.length_nil] at hdeep
      omega

theorem undisturbed_of_tame (closed : tree.Closed) (tame : IsTame path) :
    Undisturbed path tree := by
  intro parent n hparent
  have grows := makeDirs_grows closed parent n
  have hdepth : ∀ {tree : FileTree} {place}, path.segments.foldlM tree.step [] = .ok place →
      place.length = depth path.segments := fun h => (length_of_steps tame.up h).trans (by simp)
  unfold readFile locate
  cases path.check with
  | error error => rfl
  | ok _ =>
    simp only [bind, Except.bind]
    rcases steps_of_grows closed grows tame.up tame.short with
      hsame | ⟨hmissing, place, hfold, hnew⟩
    · rw [hsame]
      cases hfold : path.segments.foldlM tree.step [] with
      | error error => rfl
      | ok place => simp only [entryAt?_makeDirs hparent n (hdepth hfold)]
    · rw [hfold, hmissing]
      simp only [entryAt?_makeDirs hparent n (hdepth hfold), hnew]

theorem readFile_writeFile_temporary {content : List UInt8} {after : FileTree}
    (h : tree.writeFile path.temporary content = .ok after) :
    after.readFile path = tree.readFile path := by
  obtain ⟨prepared, hlocate, hplace, rfl⟩ := writeFile_eq_ok.1 h
  exact readFile_put_temporary hlocate hplace

theorem undisturbed_writeFile {content : List UInt8} {after : FileTree}
    (h : tree.writeFile path.temporary content = .ok after) : Undisturbed path after := by
  obtain ⟨prepared, hlocate, -⟩ := writeFile_eq_ok.1 h
  exact undisturbed_of_temporary ((opens_writeFile h).1.locate hlocate)

theorem undisturbed_renameFile {after : FileTree}
    (h : tree.renameFile path.temporary path = .ok after) : Undisturbed path after := by
  obtain ⟨prepared, _, hlocate, -⟩ := renameFile_eq_ok.1 h
  exact undisturbed_of_temporary ((opens_renameFile h).1.locate hlocate)

end FileTree

end Gatehouse
