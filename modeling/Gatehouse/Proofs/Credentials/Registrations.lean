import Gatehouse.Proofs.Credentials.RaceSafety
import Gatehouse.Proofs.Disk.Faults
import Gatehouse.Proofs.Disk.FileTree

set_option autoImplicit false

/-!
# Registrations are kept

In memory and in a file, races leave what they should. For a file this takes a path to which no other
file comes when its directory is made: where a path leads up out of a missing directory, the file that
it then leads to is overwritten.
-/

namespace Gatehouse

open Registering

/-- However many calls take turns on one store, and whatever fails for the file, every registration
that has been confirmed is there and stays as it is. -/
theorem registrations_kept :
    (∀ {δ : Type} (config : FileCredentials) (disk : Disk δ) (Sound : δ → Prop)
      (salts : Nat → Salt) (start : Salted δ), disk.Steady config.path Sound →
      Sound start.contents →
      KeepsRegistrations (config.store disk salts) (config.table disk) salts start) ∧
    ∀ (policy : PasswordPolicy) (salts : Nat → Salt) (start : Salted UserTable),
      KeepsRegistrations (MemoryCredentials.store policy salts) (MemoryCredentials.table policy)
        salts start := by
  constructor
  · intro δ config disk Sound salts start steady hsound
    rw [FileCredentials.store_eq]
    exact keepsRegistrations (FileCredentials.keeping steady) salts hsound
  · intro policy salts start
    rw [MemoryCredentials.store_eq]
    exact keepsRegistrations (MemoryCredentials.keeping policy) salts trivial

namespace FileCredentials

def zeroSalt : Salt := ⟨List.replicate 16 0, by decide⟩

def plainAt (path : FilePath) : FileCredentials := ⟨path, .plaintext⟩

theorem registrations_kept_below :
    FileTree.disk.withFaults.Steady ⟨"data/users.json"⟩
        (fun state => state.disk.Closed ∧ FileTree.IsPlain ⟨"data/users.json"⟩ state.disk) ∧
      KeepsRegistrations
        ((plainAt ⟨"data/users.json"⟩).store FileTree.disk.withFaults fun _ => zeroSalt)
        ((plainAt ⟨"data/users.json"⟩).table FileTree.disk.withFaults) (fun _ => zeroSalt)
        ⟨⟨FileTree.empty, [none, some .tooLong]⟩, 0⟩ := by
  have steady := (FileTree.steady ⟨"data/users.json"⟩).withFaults
  exact ⟨steady, registrations_kept.1 (plainAt ⟨"data/users.json"⟩) FileTree.disk.withFaults _ _ _
    steady ⟨FileTree.closed_empty, .inl (by decide)⟩⟩

def stray : FileCredentials := plainAt ⟨"missing/../users.json"⟩

def strayStart : Salted FileTree :=
  ⟨FileTree.empty.put ["users.json"]
    (.file (JsonFile.content (UserTable.empty.insert "bob" "pw").toJson)), 0⟩

def bob : User := .named ⟨"bob", by decide⟩ "pw"

/-- Another user registers: the directory is made, the file of the first one is at the path, and the
new file takes its place. -/
theorem registration_lost :
    ¬ KeepsRegistrations (stray.store FileTree.disk fun _ => zeroSalt)
      (stray.table FileTree.disk) (fun _ => zeroSalt) strayStart := by
  intro hkeeps
  let store := stray.store FileTree.disk fun _ => zeroSalt
  let begun : Race FileTree := ⟨strayStart, [.start ⟨"al", by decide⟩ ⟨"pw", by decide⟩ false]⟩
  have hbegins : Run (stray.table FileTree.disk) (fun _ => zeroSalt) ⟨strayStart, []⟩ begun :=
    .single ⟨_, .begins ⟨strayStart, []⟩ _ _ _⟩
  have hplayed : ((begun.play (stray.table FileTree.disk) (fun _ => zeroSalt) [0, 0, 0, 0, 0, 0]).any
      fun before => decide (store.Finds before.shared bob) &&
        (before.advance (stray.table FileTree.disk) (fun _ => zeroSalt) 0).any
          fun after => !decide (store.Finds after.shared bob)) = true := by
    decide +kernel
  obtain ⟨before, hbefore, hfound⟩ := (Option.any_eq_true _ _).1 hplayed
  rw [Bool.and_eq_true] at hfound
  obtain ⟨after, hafter, hlost⟩ := (Option.any_eq_true _ _).1 hfound.2
  have hrun := hbegins.trans (Race.run_play hbefore)
  have hstays := hkeeps.stays hrun (Race.step_advance hafter) (of_decide_eq_true hfound.1)
  simp only [store, hstays, decide_true] at hlost
  cases hlost

end FileCredentials

end Gatehouse
