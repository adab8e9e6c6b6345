import Gatehouse.Disk.JsonFile
import Gatehouse.Proofs.Steps

set_option autoImplicit false

/-!
# Files that are replaced as a whole

What a store of one file relies on. A disk is known by what is read from it: `Faithful` disks give
back what was written last, on `Steady` ones a change that is not complete does not show, and on
`Reliable` ones nothing fails. The states in question are those that are `Sound`.
-/

namespace Gatehouse

variable {δ : Type}

namespace Disk

/-- What a path is read as. -/
def contentAt? (disk : Disk δ) (path : FilePath) (state : δ) : Option (List UInt8) :=
  ((disk.read path).runFrom state).1.toOption

theorem contentAt?_eq_some {disk : Disk δ} {path : FilePath} {state : δ} {bytes : List UInt8} :
    disk.contentAt? path state = some bytes ↔
      ((disk.read path).runFrom state).1 = .ok bytes := by
  unfold contentAt?
  cases ((disk.read path).runFrom state).1 <;> simp [Except.toOption]

structure Faithful (disk : Disk δ) (path : FilePath) (Sound : δ → Prop) : Prop where
  read_leaves {state : δ} : Sound state → ((disk.read path).runFrom state).2 = state
  sound_createDirs {parent : FilePath} :
    path.parent? = some parent → (disk.createDirs parent).Preserves Sound
  sound_write (bytes : List UInt8) : (disk.write path.temporary bytes).Preserves Sound
  sound_rename : (disk.rename path.temporary path).Preserves Sound
  content_write {bytes : List UInt8} {state after : δ} : Sound state →
    (disk.write path.temporary bytes).runFrom state = (.ok (), after) →
    disk.contentAt? path.temporary after = some bytes
  content_rename {state after : δ} : Sound state →
    (disk.rename path.temporary path).runFrom state = (.ok (), after) →
    disk.contentAt? path after = disk.contentAt? path.temporary state

structure Steady (disk : Disk δ) (path : FilePath) (Sound : δ → Prop) : Prop
    extends Faithful disk path Sound where
  createDirs_unseen {parent : FilePath} {state : δ} : path.parent? = some parent → Sound state →
    disk.contentAt? path ((disk.createDirs parent).runFrom state).2 = disk.contentAt? path state
  write_unseen (bytes : List UInt8) {state : δ} : Sound state →
    disk.contentAt? path ((disk.write path.temporary bytes).runFrom state).2 =
      disk.contentAt? path state
  rename_failed {error : IoError} {state after : δ} : Sound state →
    (disk.rename path.temporary path).runFrom state = (.error error, after) →
    disk.contentAt? path after = disk.contentAt? path state

structure Reliable (disk : Disk δ) (path : FilePath) (Sound : δ → Prop) : Prop
    extends Faithful disk path Sound where
  read_missing {state : δ} : Sound state → disk.contentAt? path state = none →
    ((disk.read path).runFrom state).1 = .error .notFound
  writes_ok (bytes : List UInt8) {state : δ} : Sound state →
    (((JsonFile.writeSteps disk path bytes).forM id).runFrom state).1 = .ok ()

/-- Once there is something to read at the path, what is made and prepared elsewhere does not change
it. Until then it may, as when the directories of a path that leads up are yet to be made. -/
structure Settles (disk : Disk δ) (path : FilePath) (Whole Sound : δ → Prop) : Prop where
  faithful : disk.Faithful path Whole
  steady : disk.Steady path Sound
  sound_of_read {state : δ} {bytes : List UInt8} : Whole state →
    disk.contentAt? path state = some bytes → Sound state

end Disk

namespace JsonFile

open Attempt

variable {disk : Disk δ} {path : FilePath} {Sound : δ → Prop} {state : δ}

section Reading

variable {α : Type} {decode? : Json → Option α}

/-- The value in a file, by what is read from the file. -/
def valueOf (path : FilePath) (decode? : Json → Option α) :
    Except IoError (List UInt8) → Except FileError (Option α)
  | .ok bytes =>
    match (Json.parse? bytes).bind decode? with
    | some value => .ok (some value)
    | none => .error (.malformed path)
  | .error .notFound => .ok none
  | .error _ => .error (.io path)

theorem runFrom_read_of_leaves (hleaves : ((disk.read path).runFrom state).2 = state) :
    (read disk path decode?).runFrom state =
      (valueOf path decode? ((disk.read path).runFrom state).1, state) := by
  rw [read, runFrom_bind, runFrom_outcome, hleaves]
  rcases (disk.read path).runFrom state with ⟨outcome, after⟩
  cases outcome with
  | ok bytes =>
    dsimp only [valueOf]
    cases (Json.parse? bytes).bind decode? <;> rfl
  | error error => cases error <;> rfl

theorem runFrom_read (faithful : disk.Faithful path Sound) (hsound : Sound state) :
    (read disk path decode?).runFrom state =
      (match ((disk.read path).runFrom state).1 with
        | .ok bytes =>
          match (Json.parse? bytes).bind decode? with
          | some value => .ok (some value)
          | none => .error (.malformed path)
        | .error .notFound => .ok none
        | .error _ => .error (.io path), state) := by
  rw [runFrom_read_of_leaves (faithful.read_leaves hsound)]
  rfl

theorem runFrom_read_of_some (faithful : disk.Faithful path Sound) (hsound : Sound state)
    {bytes : List UInt8} (hcontent : disk.contentAt? path state = some bytes) {value : α}
    (hvalue : (Json.parse? bytes).bind decode? = some value) :
    (read disk path decode?).runFrom state = (.ok (some value), state) := by
  rw [runFrom_read faithful hsound, Disk.contentAt?_eq_some.1 hcontent]
  dsimp only
  rw [hvalue]

theorem runFrom_read_of_none (faithful : disk.Faithful path Sound) (hsound : Sound state)
    (hcontent : disk.contentAt? path state = none) :
    (read disk path decode?).runFrom state = (.ok none, state) ∨
      (read disk path decode?).runFrom state = (.error (.io path), state) := by
  rw [runFrom_read faithful hsound]
  cases hread : ((disk.read path).runFrom state).1 with
  | ok found =>
    rw [Disk.contentAt?_eq_some.2 hread] at hcontent
    cases hcontent
  | error error =>
    cases error with
    | notFound => exact .inl rfl
    | notDirectory | isDirectory | tooLong | invalidPath => exact .inr rfl

theorem runFrom_read_missing (reliable : disk.Reliable path Sound) (hsound : Sound state)
    (hcontent : disk.contentAt? path state = none) :
    (read disk path decode?).runFrom state = (.ok none, state) := by
  rw [runFrom_read reliable.toFaithful hsound, reliable.read_missing hsound hcontent]

end Reading

section Writing

theorem installs_rename (steady : disk.Steady path Sound) {bytes : List UInt8}
    (hsound : Sound state) (hprepared : disk.contentAt? path.temporary state = some bytes) :
    Installs Sound (disk.contentAt? path) (some bytes) [disk.rename path.temporary path] state := by
  have hafter := steady.sound_rename state hsound
  apply Installs.last
  · intro error after hrun
    rw [hrun] at hafter
    exact ⟨hafter, steady.rename_failed hsound hrun⟩
  · intro after hrun
    rw [hrun] at hafter
    exact ⟨hafter, (steady.content_rename hsound hrun).trans hprepared⟩

theorem installs_write_rename (steady : disk.Steady path Sound) (bytes : List UInt8)
    (hsound : Sound state) :
    Installs Sound (disk.contentAt? path) (some bytes)
      [disk.write path.temporary bytes, disk.rename path.temporary path] state := by
  have hafter := steady.sound_write bytes state hsound
  have hunseen := steady.write_unseen bytes hsound
  apply Installs.more
  · intro error after hrun
    rw [hrun] at hafter hunseen
    exact ⟨hafter, hunseen⟩
  · intro after hrun
    rw [hrun] at hafter hunseen
    exact ⟨hafter, hunseen⟩
  · intro after hrun
    rw [hrun] at hafter
    exact installs_rename steady hafter (steady.content_write hsound hrun)

theorem installs_writeSteps (steady : disk.Steady path Sound) (bytes : List UInt8)
    (hsound : Sound state) :
    Installs Sound (disk.contentAt? path) (some bytes) (writeSteps disk path bytes) state := by
  cases hparent : path.parent? with
  | none =>
    rw [writeSteps, hparent]
    exact installs_write_rename steady bytes hsound
  | some parent =>
    have hafter := steady.sound_createDirs hparent state hsound
    have hunseen := steady.createDirs_unseen hparent hsound
    rw [writeSteps, hparent]
    apply Installs.more
    · intro error after hrun
      rw [hrun] at hafter hunseen
      exact ⟨hafter, hunseen⟩
    · intro after hrun
      rw [hrun] at hafter hunseen
      exact ⟨hafter, hunseen⟩
    · intro after hrun
      rw [hrun] at hafter
      exact installs_write_rename steady bytes hafter

theorem write_of_steady (steady : disk.Steady path Sound) (hsound : Sound state) {value : Json}
    {outcome : Except FileError Unit} {after : δ}
    (hrun : (write disk path value).runFrom state = (outcome, after)) :
    Sound after ∧ disk.contentAt? path after =
      if outcome.isOk then some (content value) else disk.contentAt? path state := by
  rw [write, ← forM_mapError] at hrun
  exact ((installs_writeSteps steady (content value) hsound).mapError _).forM hrun

theorem write_rename_ok (faithful : disk.Faithful path Sound) {bytes : List UInt8}
    (hsound : Sound state) {after : δ}
    (hrun : (List.forM [disk.write path.temporary bytes, disk.rename path.temporary path] id).runFrom
      state = (.ok (), after)) :
    Sound after ∧ disk.contentAt? path after = some bytes := by
  obtain ⟨prepared, hwrite, hrun⟩ := runFrom_forM_cons_eq_ok.1 hrun
  obtain ⟨renamed, hrename, hrun⟩ := runFrom_forM_cons_eq_ok.1 hrun
  obtain rfl : renamed = after := congrArg Prod.snd hrun
  have hprepared := faithful.sound_write bytes state hsound
  rw [hwrite] at hprepared
  have hafter := faithful.sound_rename prepared hprepared
  rw [hrename] at hafter
  exact ⟨hafter, (faithful.content_rename hprepared hrename).trans
    (faithful.content_write hsound hwrite)⟩

theorem writeSteps_ok (faithful : disk.Faithful path Sound) {bytes : List UInt8}
    (hsound : Sound state) {after : δ}
    (hrun : ((writeSteps disk path bytes).forM id).runFrom state = (.ok (), after)) :
    Sound after ∧ disk.contentAt? path after = some bytes := by
  cases hparent : path.parent? with
  | none =>
    rw [writeSteps, hparent] at hrun
    exact write_rename_ok faithful hsound hrun
  | some parent =>
    rw [writeSteps, hparent] at hrun
    obtain ⟨made, hmade, hrun⟩ := runFrom_forM_cons_eq_ok.1 hrun
    have hsound := faithful.sound_createDirs hparent state hsound
    rw [hmade] at hsound
    exact write_rename_ok faithful hsound hrun

theorem write_of_reliable (reliable : disk.Reliable path Sound) (hsound : Sound state)
    (value : Json) :
    ∃ after, (write disk path value).runFrom state = (.ok (), after) ∧
      Sound after ∧ disk.contentAt? path after = some (content value) := by
  have hok := reliable.writes_ok (content value) hsound
  rcases hrun : ((writeSteps disk path (content value)).forM id).runFrom state with ⟨outcome, after⟩
  rw [hrun] at hok
  obtain rfl : outcome = .ok () := hok
  refine ⟨after, ?_, writeSteps_ok reliable.toFaithful hsound hrun⟩
  rw [write, runFrom_mapError_eq_ok, hrun]

theorem read_of_write {α : Type} {decode? : Json → Option α} (faithful : disk.Faithful path Sound)
    (hsound : Sound state) {json : Json} {value : α}
    (hvalue : (Json.parse? (content json)).bind decode? = some value) {after : δ}
    (hrun : (write disk path json).runFrom state = (.ok (), after)) :
    (read disk path decode?).runFrom after = (.ok (some value), after) := by
  rw [write, runFrom_mapError_eq_ok] at hrun
  obtain ⟨hafter, hcontent⟩ := writeSteps_ok faithful hsound hrun
  exact runFrom_read_of_some faithful hafter hcontent hvalue

end Writing

end JsonFile

end Gatehouse
