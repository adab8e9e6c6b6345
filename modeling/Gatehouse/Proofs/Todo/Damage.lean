import Gatehouse.Proofs.Todo.JsonFile

set_option autoImplicit false

/-!
# To-do lists in damaged files

A store that is opened on a file which holds no list refuses every call and leaves the file alone.
It has nothing in memory to go by, so each call reads the file again, and once there is another
content the store is as if it had been opened then.
-/

namespace Gatehouse

inductive TodoReply where
  | listed (items : List TodoItem)
  | added (item : TodoItem)
  deriving DecidableEq

abbrev TodoAnswer := Except TodoError TodoReply

namespace TodoStore

variable {σ : Type}

def serve (store : TodoStore σ) : FileTodos.Call → Attempt TodoError σ TodoReply
  | .list => .listed <$> store.list
  | .append todo => .added <$> store.append todo

def answers (store : TodoStore σ) : List FileTodos.Call → σ → List TodoAnswer
  | [], _ => []
  | call :: calls, state =>
    ((store.serve call).runFrom state).1 ::
      store.answers calls ((store.serve call).runFrom state).2

def after (store : TodoStore σ) : List FileTodos.Call → σ → σ
  | [], state => state
  | call :: calls, state => store.after calls ((store.serve call).runFrom state).2

end TodoStore

namespace FileTodos

open Attempt

variable {δ : Type} {config : FileTodos} {disk : Disk δ} {start : δ}

/-- A store that is opened on a file which holds no list, until there is something else on the disk
and from then on. -/
structure SurvivesDamage (config : FileTodos) (disk : Disk δ) (start : δ) : Prop where
  refused (calls : List Call) : (config.store disk).answers calls (config.openOn disk start) =
    calls.map fun _ => .error (.unavailable (FileError.malformed config.path).message)
  untouched (calls : List Call) :
    ((config.store disk).after calls (config.openOn disk start)).disk = start
  /-- What was opened and called before makes no difference. -/
  repaired (calls later : List Call) (other : δ) :
    let state := (config.store disk).after calls (config.openOn disk start)
    (config.store disk).answers later { state with disk := other } =
        (config.store disk).answers later (config.openOn disk other) ∧
      ((config.store disk).after later { state with disk := other }).disk =
        ((config.store disk).after later (config.openOn disk other)).disk
  readable {other : δ} {bytes : List UInt8} {items : List TodoItem} :
    disk.contentAt? config.path other = some bytes → TodoItem.listOfBytes? bytes = some items →
    config.openOn disk other = ⟨other, .loaded items⟩
  removed {other : δ} : ((disk.read config.path).runFrom other).1 = .error .notFound →
    config.openOn disk other = ⟨other, .loaded []⟩

section Opening

variable {bytes : List UInt8} (hleaves : ((disk.read config.path).runFrom start).2 = start)

include hleaves

theorem openOn_of_readable {items : List TodoItem}
    (hcontent : disk.contentAt? config.path start = some bytes)
    (hitems : TodoItem.listOfBytes? bytes = some items) :
    config.openOn disk start = ⟨start, .loaded items⟩ := by
  rw [TodoItem.listOfBytes?] at hitems
  rw [openOn_eq hleaves, Disk.contentAt?_eq_some.1 hcontent, JsonFile.valueOf, hitems]
  rfl

theorem openOn_of_damaged (hcontent : disk.contentAt? config.path start = some bytes)
    (hdamaged : TodoItem.listOfBytes? bytes = none) :
    config.openOn disk start =
      ⟨start, .unavailable (FileError.malformed config.path).message⟩ := by
  rw [TodoItem.listOfBytes?] at hdamaged
  rw [openOn_eq hleaves, Disk.contentAt?_eq_some.1 hcontent, JsonFile.valueOf, hdamaged]
  rfl

theorem openOn_of_removed
    (hmissing : ((disk.read config.path).runFrom start).1 = .error .notFound) :
    config.openOn disk start = ⟨start, .loaded []⟩ := by
  rw [openOn_eq hleaves, hmissing]
  rfl

end Opening

section Unavailable

variable {state : OpenTodos δ} {reason : String}
  (hcontents : state.contents = .unavailable reason)
  (hleaves : ((disk.read config.path).runFrom state.disk).2 = state.disk)

include hcontents hleaves

theorem runFrom_items_again :
    (config.items disk).runFrom state =
      (config.items disk).runFrom (config.openOn disk state.disk) := by
  have hopened := openOn_eq hleaves
  rw [runFrom_items_of_unavailable hcontents hleaves]
  cases hcontents : (config.openOn disk state.disk).contents with
  | loaded items =>
    rw [runFrom_items hcontents]
    rfl
  | unavailable reason =>
    have hdisk : (config.openOn disk state.disk).disk = state.disk := by rw [hopened]
    have hagain := runFrom_items_of_unavailable hcontents (by rw [hdisk, hleaves])
    rw [hagain, hdisk, hcontents]

/-- A call goes by what is in the file now. -/
theorem runFrom_serve_again (call : Call) :
    ((config.store disk).serve call).runFrom state =
      ((config.store disk).serve call).runFrom (config.openOn disk state.disk) := by
  have hitems := runFrom_items_again hcontents hleaves
  cases call with
  | list =>
    simp only [TodoStore.serve, store, map_eq_pure_bind]
    rw [runFrom_bind, runFrom_bind, hitems]
  | append todo =>
    simp only [TodoStore.serve, store, map_eq_pure_bind, append]
    rw [runFrom_bind, runFrom_bind, runFrom_bind, runFrom_bind, hitems]

/-- The file holds no list still. -/
theorem runFrom_serve_refused (hopened : config.openOn disk state.disk = state) (call : Call) :
    ((config.store disk).serve call).runFrom state = (.error (.unavailable reason), state) := by
  have hitems := runFrom_items_of_unavailable hcontents hleaves
  rw [hopened, hcontents] at hitems
  cases call with
  | list =>
    simp only [TodoStore.serve, store, map_eq_pure_bind]
    rw [runFrom_bind, hitems]
    rfl
  | append todo =>
    simp only [TodoStore.serve, store, map_eq_pure_bind, append]
    rw [runFrom_bind, runFrom_bind, hitems]
    rfl

theorem answers_again (calls : List Call) :
    (config.store disk).answers calls state =
        (config.store disk).answers calls (config.openOn disk state.disk) ∧
      ((config.store disk).after calls state).disk =
        ((config.store disk).after calls (config.openOn disk state.disk)).disk := by
  cases calls with
  | nil => exact ⟨rfl, by rw [openOn_eq hleaves]; rfl⟩
  | cons call calls =>
    simp only [TodoStore.answers, TodoStore.after]
    rw [runFrom_serve_again hcontents hleaves call]
    exact ⟨rfl, rfl⟩

theorem answers_refused (hopened : config.openOn disk state.disk = state) (calls : List Call) :
    (config.store disk).answers calls state = calls.map (fun _ => .error (.unavailable reason)) ∧
      (config.store disk).after calls state = state := by
  induction calls with
  | nil => exact ⟨rfl, rfl⟩
  | cons call calls ih =>
    obtain ⟨hanswers, hafter⟩ := ih
    simp only [TodoStore.answers, TodoStore.after, List.map_cons]
    rw [runFrom_serve_refused hcontents hleaves hopened call]
    exact ⟨by rw [hanswers], hafter⟩

end Unavailable

theorem survivesDamage (hleaves : ∀ state, ((disk.read config.path).runFrom state).2 = state)
    {bytes : List UInt8} (hcontent : disk.contentAt? config.path start = some bytes)
    (hdamaged : TodoItem.listOfBytes? bytes = none) : config.SurvivesDamage disk start := by
  have hopened := openOn_of_damaged (hleaves start) hcontent hdamaged
  have hrefused (calls : List Call) :
      (config.store disk).answers calls (config.openOn disk start) = calls.map (fun _ =>
          .error (.unavailable (FileError.malformed config.path).message)) ∧
        (config.store disk).after calls (config.openOn disk start) = config.openOn disk start :=
    answers_refused (by rw [hopened]) (hleaves _) (by rw [hopened, hopened]) calls
  constructor
  case refused => exact fun calls => (hrefused calls).1
  case untouched =>
    intro calls
    rw [(hrefused calls).2, hopened]
  case repaired =>
    intro calls later other state
    have hstate : state = ⟨start, .unavailable (FileError.malformed config.path).message⟩ :=
      (hrefused calls).2.trans hopened
    rw [hstate]
    exact answers_again rfl (hleaves other) later
  case readable => exact fun hcontent hitems => openOn_of_readable (hleaves _) hcontent hitems
  case removed => exact fun hmissing => openOn_of_removed (hleaves _) hmissing

end FileTodos

end Gatehouse
