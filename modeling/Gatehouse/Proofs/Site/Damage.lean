import Gatehouse.Proofs.Credentials.Damage
import Gatehouse.Proofs.Disk.FileTree
import Gatehouse.Proofs.Todo.Damage

set_option autoImplicit false

/-!
# Files that cannot be read

Neither store of the site takes a file that it cannot read for an empty one, and neither writes it.
Both come back by themselves when the file can be read, or is gone.
-/

namespace Gatehouse

/-- Whatever bytes a file holds that are no list, or no user table, and whichever calls are made:
the file stays as it is until somebody else replaces it. -/
theorem damaged_files_kept {δ : Type} (disk : Disk δ)
    (hleaves : ∀ path state, ((disk.read path).runFrom state).2 = state) :
    (∀ (config : FileTodos) (start : δ) (bytes : List UInt8),
      disk.contentAt? config.path start = some bytes → TodoItem.listOfBytes? bytes = none →
      config.SurvivesDamage disk start) ∧
    ∀ (config : FileCredentials) (salts : Nat → Salt) (start : δ) (bytes : List UInt8),
      disk.contentAt? config.path start = some bytes → UserTable.ofBytes? bytes = none →
      config.SurvivesDamage disk salts start :=
  ⟨fun config _ _ hcontent hdamaged =>
      FileTodos.survivesDamage (hleaves config.path) hcontent hdamaged,
    fun config salts _ _ hcontent hdamaged =>
      FileCredentials.survivesDamage salts (hleaves config.path) hcontent hdamaged⟩

def damagedFiles : FileTree :=
  (FileTree.empty.put ["todos.json"] (.file [0x5B, 0x7B])).put ["users.json"] (.file [0xFF])

theorem damaged_files_kept_sample :
    let todos : FileTodos := ⟨⟨"todos.json"⟩⟩
    let users : FileCredentials := ⟨⟨"users.json"⟩, .argon2⟩
    let salts : Nat → Salt := fun _ => ⟨List.replicate 16 0, by decide⟩
    let opened := todos.openOn FileTree.disk damagedFiles
    let calls : List (CredentialCall UserId) :=
      [.create ⟨"al", by decide⟩ ⟨"pw", by decide⟩, .get ⟨"al"⟩]
    todos.SurvivesDamage FileTree.disk damagedFiles ∧
      users.SurvivesDamage FileTree.disk salts damagedFiles ∧
      (todos.store FileTree.disk).answers [.list]
          { (todos.store FileTree.disk).after [.list] opened with disk := .empty } =
        [.ok (.listed [])] ∧
      (users.store FileTree.disk salts).answers calls ⟨damagedFiles, 0⟩ =
        calls.map fun _ => .error (.unavailable (FileError.malformed users.path).message) := by
  intro todos users salts opened calls
  have hkept := damaged_files_kept FileTree.disk fun _ _ => rfl
  have htodos := hkept.1 todos damagedFiles [0x5B, 0x7B] (by decide +kernel) (by cbv)
  have husers := hkept.2 users salts damagedFiles [0xFF] (by decide +kernel) (by cbv)
  refine ⟨htodos, husers, ?_, husers.refused calls 0 ?_⟩
  · rw [(htodos.repaired [.list] [.list] .empty).1, htodos.removed (by decide +kernel)]
    rfl
  · intro call hcall
    rcases List.mem_pair.1 hcall with rfl | rfl
    · trivial
    · exact (by decide : (Username.ofText? "al").isSome = true)

end Gatehouse
