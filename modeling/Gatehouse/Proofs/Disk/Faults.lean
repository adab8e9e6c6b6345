import Gatehouse.Proofs.Disk.JsonFile

set_option autoImplicit false

/-!
# Disks that fail when they are told to

Each change takes the next entry of a list, and fails without a trace where that is an error. A steady
disk stays steady whatever the list says.
-/

namespace Gatehouse.Disk

variable {δ : Type}

/-- A disk with the errors of the changes to come. -/
structure Faulty (δ : Type) where
  disk : δ
  faults : List (Option IoError) := []
  deriving DecidableEq, Repr

def orFault (step : Attempt IoError δ Unit) : Attempt IoError (Faulty δ) Unit :=
  .ofFunction fun state =>
    match state.faults with
    | some error :: faults => (.error error, ⟨state.disk, faults⟩)
    | faults => ((step.runFrom state.disk).1, ⟨(step.runFrom state.disk).2, faults.tail⟩)

def withFaults (disk : Disk δ) : Disk (Faulty δ) where
  read path := (disk.read path).onPart Faulty.disk fun inner state => { state with disk := inner }
  createDirs path := orFault (disk.createDirs path)
  write path content := orFault (disk.write path content)
  rename source target := orFault (disk.rename source target)

theorem runFrom_orFault (step : Attempt IoError δ Unit) (state : Faulty δ) :
    (∃ error faults, (orFault step).runFrom state = (.error error, ⟨state.disk, faults⟩)) ∨
      ∃ faults, (orFault step).runFrom state =
        ((step.runFrom state.disk).1, ⟨(step.runFrom state.disk).2, faults⟩) := by
  rw [orFault, Attempt.runFrom_ofFunction]
  rcases state.faults with _ | ⟨fault, faults⟩
  · exact .inr ⟨_, rfl⟩
  · cases fault with
    | none => exact .inr ⟨_, rfl⟩
    | some error => exact .inl ⟨error, faults, rfl⟩

theorem runFrom_orFault_eq_ok {step : Attempt IoError δ Unit} {state after : Faulty δ}
    (h : (orFault step).runFrom state = (.ok (), after)) :
    step.runFrom state.disk = (.ok (), after.disk) := by
  rcases runFrom_orFault step state with ⟨error, faults, hrun⟩ | ⟨faults, hrun⟩
  · rw [hrun] at h
    cases h
  · rw [hrun] at h
    obtain ⟨hok, rfl⟩ := Prod.mk.inj h
    rw [← hok]

theorem preserves_orFault {step : Attempt IoError δ Unit} {p : δ → Prop} (h : step.Preserves p) :
    (orFault step).Preserves fun state => p state.disk := by
  intro state hstate
  rcases runFrom_orFault step state with ⟨error, faults, hrun⟩ | ⟨faults, hrun⟩
  · rw [hrun]
    exact hstate
  · rw [hrun]
    exact h state.disk hstate

theorem unseen_orFault {step : Attempt IoError δ Unit} {disk : Disk δ} {path : FilePath}
    {state : Faulty δ}
    (h : disk.contentAt? path (step.runFrom state.disk).2 = disk.contentAt? path state.disk) :
    disk.contentAt? path ((orFault step).runFrom state).2.disk =
      disk.contentAt? path state.disk := by
  rcases runFrom_orFault step state with ⟨error, faults, hrun⟩ | ⟨faults, hrun⟩
  · rw [hrun]
  · rw [hrun]
    exact h

theorem Steady.withFaults {disk : Disk δ} {path : FilePath} {Sound : δ → Prop}
    (steady : disk.Steady path Sound) :
    disk.withFaults.Steady path fun state => Sound state.disk where
  read_leaves {state} hsound := by
    have hleaves := steady.read_leaves hsound
    rw [Disk.withFaults, Attempt.runFrom_onPart, hleaves]
  sound_createDirs hparent := preserves_orFault (steady.sound_createDirs hparent)
  sound_write bytes := preserves_orFault (steady.sound_write bytes)
  sound_rename := preserves_orFault steady.sound_rename
  content_write hsound hrun := steady.content_write hsound (runFrom_orFault_eq_ok hrun)
  content_rename hsound hrun := steady.content_rename hsound (runFrom_orFault_eq_ok hrun)
  createDirs_unseen hparent hsound := unseen_orFault (steady.createDirs_unseen hparent hsound)
  write_unseen bytes _ hsound := unseen_orFault (steady.write_unseen bytes hsound)
  rename_failed {error state after} hsound hrun := by
    change (orFault (disk.rename path.temporary path)).runFrom state = _ at hrun
    rcases runFrom_orFault (disk.rename path.temporary path) state with
      ⟨_, faults, hfault⟩ | ⟨faults, hreal⟩
    · rw [hfault] at hrun
      cases hrun
      rfl
    · rw [hreal] at hrun
      obtain ⟨herror, rfl⟩ := Prod.mk.inj hrun
      exact steady.rename_failed hsound (Prod.ext herror rfl)

end Gatehouse.Disk
