import Gatehouse.Proofs.Credentials.Crashes
import Gatehouse.Proofs.Todo.Crashes

set_option autoImplicit false

/-!
# Files after a crash

Both stores of the site replace their files as a whole. Where making the missing directories above a
file neither brings nor hides it, whoever opens it after a crash finds everything that was confirmed.
-/

namespace Gatehouse

open FileTree

/-- Whenever the process stops and whichever changes fail, and whatever was left beside the file, a
file has its old content or the new one as a whole, and nothing that was confirmed is missing. -/
theorem files_survive_crashes :
    (∀ (config : FileTodos) (tree : FileTree), Undisturbed config.path tree →
      config.SurvivesCrashes tree) ∧
    ∀ (config : FileCredentials) (salts : Nat → Salt) (tree : FileTree),
      Undisturbed config.path tree → config.SurvivesCrashes salts tree :=
  ⟨fun _ _ h => FileTodos.survivesCrashes h,
    fun _ salts _ h => FileCredentials.survivesCrashes salts h⟩

def halfWritten : FileTree :=
  (empty.put ["data"] .directory).put ["data", "todos.json.tmp"] (.file [0x5b])

theorem files_survive_crashes_below :
    Undisturbed ⟨"data/todos.json"⟩ halfWritten ∧ Undisturbed ⟨"data/users.json"⟩ empty ∧
      FileTodos.SurvivesCrashes ⟨⟨"data/todos.json"⟩⟩ halfWritten ∧
      FileCredentials.SurvivesCrashes ⟨⟨"data/users.json"⟩, .argon2⟩
        (fun _ => ⟨List.replicate 16 0, by decide⟩) empty := by
  have hlocate : halfWritten.locate (FilePath.mk "data/todos.json").temporary =
      .ok ["data", "todos.json.tmp"] := by decide
  have htodos := undisturbed_of_temporary hlocate
  have husers : Undisturbed ⟨"data/users.json"⟩ empty :=
    undisturbed_of_tame closed_empty ⟨by decide, by decide⟩
  exact ⟨htodos, husers, files_survive_crashes.1 ⟨⟨"data/todos.json"⟩⟩ _ htodos,
    files_survive_crashes.2 _ _ _ husers⟩

/-- A process makes the directory on the stray path and stops: the file of somebody else is at the
path from then on. -/
theorem FileTodos.stray_disturbed : ¬ stray.SurvivesCrashes strayStart := by
  intro hsurvives
  have hfound : stray.found strayStart = .loaded [] := by decide +kernel
  have hparent : stray.path.parent? = some ⟨"missing/.."⟩ := by decide +kernel
  have hsame := hsurvives.undisturbed hfound ⟨"missing/.."⟩ 1 hparent
  have hchanged : (makeDirs ⟨"missing/.."⟩ 1 strayStart).readFile stray.path ≠
      strayStart.readFile stray.path := by decide +kernel
  exact hchanged hsame

end Gatehouse
