import Gatehouse.Proofs.Disk.Faults
import Gatehouse.Proofs.Disk.FileTree
import Gatehouse.Proofs.Todo.Codec
import Gatehouse.Todo.JsonFile
import Mathlib.Logic.Relation

set_option autoImplicit false

/-!
# To-do lists over whole runs

The list in memory and the file stay in step through every call, whatever fails on the disk: an item
has its place as its id, and none is lost or changed.
-/

namespace Gatehouse.FileTodos

open Attempt

variable {δ : Type}

inductive Call where
  | list
  | append (todo : NewTodo)

def Call.leaves (config : FileTodos) (disk : Disk δ) (state : OpenTodos δ) : Call → OpenTodos δ
  | .list => ((config.store disk).list.runFrom state).2
  | .append todo => (((config.store disk).append todo).runFrom state).2

abbrev Run (config : FileTodos) (disk : Disk δ) : OpenTodos δ → OpenTodos δ → Prop :=
  Relation.ReflTransGen fun before after => ∃ call : Call, after = call.leaves config disk before

def Numbered (items : List TodoItem) : Prop :=
  ∀ i item, items[i]? = some item → item.id = (i + 1).toUInt64

def Mirrors (config : FileTodos) (disk : Disk δ) (state : δ) (items : List TodoItem) : Prop :=
  match disk.contentAt? config.path state with
  | some bytes => TodoItem.listOfBytes? bytes = some items
  | none => items = []

/-- What holds of a store after any calls, and of each call in such a state. -/
structure KeepsList (config : FileTodos) (disk : Disk δ) (start : OpenTodos δ) : Prop where
  loaded {state : OpenTodos δ} : Run config disk start state →
    ∃ items, state.contents = .loaded items
  numbered {state : OpenTodos δ} {items : List TodoItem} : Run config disk start state →
    state.contents = .loaded items → ∀ i item, items[i]? = some item →
      item.id = (i + 1).toUInt64 ∧ (i + 1 < UInt64.size → item.id.toNat = i + 1)
  mirrored {state : OpenTodos δ} {items : List TodoItem} : Run config disk start state →
    state.contents = .loaded items → Mirrors config disk state.disk items
  grows {state later : OpenTodos δ} {items more : List TodoItem} : Run config disk start state →
    Run config disk state later → state.contents = .loaded items →
    later.contents = .loaded more → items <+: more
  listed {state : OpenTodos δ} {items : List TodoItem} : Run config disk start state →
    state.contents = .loaded items → (config.store disk).list.runFrom state = (.ok items, state)
  appended {state after : OpenTodos δ} {items : List TodoItem} {todo : NewTodo} {item : TodoItem} :
    Run config disk start state → state.contents = .loaded items →
    ((config.store disk).append todo).runFrom state = (.ok item, after) →
    after.contents = .loaded (items ++ [item]) ∧ item.title = todo.title ∧
      item.time = todo.time ∧ item.content = todo.content ∧ item.completed = false
  refused {state after : OpenTodos δ} {items : List TodoItem} {todo : NewTodo}
      {error : TodoError} : Run config disk start state → state.contents = .loaded items →
    ((config.store disk).append todo).runFrom state = (.error error, after) →
    after.contents = .loaded items ∧
      disk.contentAt? config.path after.disk = disk.contentAt? config.path state.disk
  /-- The next item gets the id that a refused one would have had on a disk that takes it. -/
  retried {state mid later after : OpenTodos δ} {items : List TodoItem} {todo other : NewTodo}
      {error : TodoError} {item would : TodoItem} {better : Disk δ} {healthy : δ}
      {done : OpenTodos δ} : Run config disk start state → state.contents = .loaded items →
    ((config.store disk).append todo).runFrom state = (.error error, mid) →
    Run config disk mid later → later.contents = .loaded items →
    ((config.store disk).append other).runFrom later = (.ok item, after) →
    ((config.store better).append todo).runFrom ⟨healthy, state.contents⟩ = (.ok would, done) →
    item.id = would.id

variable {config : FileTodos} {disk : Disk δ} {Sound : δ → Prop} {state after : OpenTodos δ}
  {items : List TodoItem} {todo : NewTodo}

theorem runFrom_items (hloaded : state.contents = .loaded items) :
    (config.items disk).runFrom state = (.ok items, state) := by
  rw [FileTodos.items, runFrom_bind, runFrom_get]
  dsimp only
  rw [hloaded]
  rfl

def contentsOf : Except FileError (Option (List TodoItem)) → TodoContents
  | .ok items => .loaded (items.getD [])
  | .error error => .unavailable error.message

theorem runFrom_load {ε : Type} {start : δ}
    (hleaves : ((disk.read config.path).runFrom start).2 = start) :
    (config.load disk : Attempt ε δ TodoContents).runFrom start =
      (.ok (contentsOf (JsonFile.valueOf config.path TodoItem.listOfJson?
        ((disk.read config.path).runFrom start).1)), start) := by
  rw [load, runFrom_bind, runFrom_outcome, JsonFile.runFrom_read_of_leaves hleaves]
  dsimp only
  rcases JsonFile.valueOf config.path TodoItem.listOfJson? _ with error | value <;> rfl

theorem openOn_eq {start : δ} (hleaves : ((disk.read config.path).runFrom start).2 = start) :
    config.openOn disk start = ⟨start, contentsOf (JsonFile.valueOf config.path
      TodoItem.listOfJson? ((disk.read config.path).runFrom start).1)⟩ := by
  rw [openOn, runFrom_load hleaves]

def itemsOf : TodoContents → Except TodoError (List TodoItem)
  | .loaded items => .ok items
  | .unavailable reason => .error (.unavailable reason)

theorem runFrom_items_of_unavailable {reason : String}
    (hcontents : state.contents = .unavailable reason)
    (hleaves : ((disk.read config.path).runFrom state.disk).2 = state.disk) :
    (config.items disk).runFrom state =
      (itemsOf (config.openOn disk state.disk).contents, config.openOn disk state.disk) := by
  rw [FileTodos.items, runFrom_bind, runFrom_get]
  dsimp only
  rw [hcontents]
  dsimp only
  rw [runFrom_bind, onDisk, runFrom_onPart, runFrom_load hleaves, openOn_eq hleaves]
  dsimp only
  rw [runFrom_bind, runFrom_modify]
  dsimp only
  cases contentsOf _ <;> rfl

def nextItem (items : List TodoItem) (todo : NewTodo) : TodoItem :=
  todo.toItem (items.length.toUInt64 + 1)

theorem runFrom_append (hloaded : state.contents = .loaded items) (todo : NewTodo) :
    (config.append disk todo).runFrom state =
      match (JsonFile.write disk config.path
        (TodoItem.listToJson (items ++ [nextItem items todo]))).runFrom state.disk with
      | (.ok (), after) =>
        (.ok (nextItem items todo), ⟨after, .loaded (items ++ [nextItem items todo])⟩)
      | (.error error, after) => (.error (ofFileError error), ⟨after, .loaded items⟩) := by
  rw [append, runFrom_bind, runFrom_items hloaded]
  dsimp only
  rw [runFrom_bind, setItems, runFrom_modify]
  dsimp only
  rw [runFrom_bind, runFrom_outcome, onDisk, runFrom_onPart]
  dsimp only
  rw [← nextItem]
  rcases Attempt.runFrom _ state.disk with ⟨outcome, mid⟩
  cases outcome <;> rfl

theorem eq_nextItem (hloaded : state.contents = .loaded items) {item : TodoItem}
    (hrun : (config.append disk todo).runFrom state = (.ok item, after)) :
    item = nextItem items todo := by
  rw [runFrom_append hloaded] at hrun
  rcases hwrite : (JsonFile.write disk config.path
    (TodoItem.listToJson (items ++ [nextItem items todo]))).runFrom state.disk with ⟨outcome, left⟩
  rw [hwrite] at hrun
  cases outcome with
  | error error => cases hrun
  | ok value => exact (Except.ok.inj (Prod.mk.inj hrun).1).symm

theorem numbered_nil : Numbered [] := by
  intro i item h
  simp at h

theorem numbered_concat (hnumbered : Numbered items) (todo : NewTodo) :
    Numbered (items ++ [nextItem items todo]) := by
  intro i item hitem
  rw [List.getElem?_append] at hitem
  split at hitem
  · exact hnumbered i item hitem
  · have hi : i = items.length := by
      have := (List.getElem?_eq_some_iff.1 hitem).1
      simp at this
      omega
    subst hi
    simp at hitem
    rw [← hitem, nextItem, NewTodo.toItem]
    simp

theorem toNat_id {i : Nat} {item : TodoItem} (h : item.id = (i + 1).toUInt64)
    (hsmall : i + 1 < UInt64.size) : item.id.toNat = i + 1 := by
  rw [h]
  exact UInt64.toNat_ofNat_of_lt' hsmall

/-- What stays true between the calls. -/
structure InStep (config : FileTodos) (disk : Disk δ) (Sound : δ → Prop) (state : OpenTodos δ)
    (items : List TodoItem) : Prop where
  sound : Sound state.disk
  loaded : state.contents = .loaded items
  numbered : Numbered items
  mirrored : Mirrors config disk state.disk items

theorem append_ok (steady : disk.Steady config.path Sound)
    (h : InStep config disk Sound state items) {item : TodoItem}
    (hrun : (config.append disk todo).runFrom state = (.ok item, after)) :
    item = nextItem items todo ∧ InStep config disk Sound after (items ++ [item]) := by
  rw [runFrom_append h.loaded] at hrun
  rcases hwrite : (JsonFile.write disk config.path
    (TodoItem.listToJson (items ++ [nextItem items todo]))).runFrom state.disk with ⟨outcome, left⟩
  obtain ⟨hsound, hcontent⟩ := JsonFile.write_of_steady steady h.sound hwrite
  rw [hwrite] at hrun
  cases outcome with
  | error error => cases hrun
  | ok value =>
    cases hrun
    refine ⟨rfl, hsound, rfl, numbered_concat h.numbered todo, ?_⟩
    rw [Mirrors, hcontent]
    exact TodoItem.listOfBytes?_content _

theorem append_error (steady : disk.Steady config.path Sound)
    (h : InStep config disk Sound state items) {error : TodoError}
    (hrun : (config.append disk todo).runFrom state = (.error error, after)) :
    InStep config disk Sound after items ∧
      disk.contentAt? config.path after.disk = disk.contentAt? config.path state.disk := by
  rw [runFrom_append h.loaded] at hrun
  rcases hwrite : (JsonFile.write disk config.path
    (TodoItem.listToJson (items ++ [nextItem items todo]))).runFrom state.disk with ⟨outcome, left⟩
  obtain ⟨hsound, hcontent⟩ := JsonFile.write_of_steady steady h.sound hwrite
  rw [hwrite] at hrun
  cases outcome with
  | ok value => cases hrun
  | error cause =>
    cases hrun
    have hsame : disk.contentAt? config.path left = disk.contentAt? config.path state.disk :=
      hcontent
    refine ⟨⟨hsound, rfl, h.numbered, ?_⟩, hsame⟩
    rw [Mirrors, hsame]
    exact h.mirrored

theorem InStep.leaves (steady : disk.Steady config.path Sound)
    (h : InStep config disk Sound state items) (call : Call) :
    ∃ more, InStep config disk Sound (call.leaves config disk state) more ∧ items <+: more := by
  cases call with
  | list =>
    refine ⟨items, ?_, List.prefix_refl items⟩
    change InStep config disk Sound ((config.items disk).runFrom state).2 items
    rw [runFrom_items h.loaded]
    exact h
  | append todo =>
    change ∃ more, InStep config disk Sound ((config.append disk todo).runFrom state).2 more ∧ _
    rcases hrun : (config.append disk todo).runFrom state with ⟨outcome, after⟩
    cases outcome with
    | ok item => exact ⟨_, (append_ok steady h hrun).2, List.prefix_append items [item]⟩
    | error error => exact ⟨items, (append_error steady h hrun).1, List.prefix_refl items⟩

theorem InStep.run (steady : disk.Steady config.path Sound)
    (h : InStep config disk Sound state items) {later : OpenTodos δ}
    (hrun : Run config disk state later) :
    ∃ more, InStep config disk Sound later more ∧ items <+: more := by
  induction hrun with
  | refl => exact ⟨items, h, List.prefix_refl items⟩
  | tail hbefore hcall ih =>
    obtain ⟨call, rfl⟩ := hcall
    obtain ⟨more, hmore, hprefix⟩ := ih
    obtain ⟨most, hmost, hprefix'⟩ := hmore.leaves steady call
    exact ⟨most, hmost, hprefix.trans hprefix'⟩

theorem InStep.reached (steady : disk.Steady config.path Sound)
    (h : InStep config disk Sound state items) {later : OpenTodos δ} {more : List TodoItem}
    (hrun : Run config disk state later) (hmore : later.contents = .loaded more) :
    InStep config disk Sound later more ∧ items <+: more := by
  obtain ⟨found, hfound, hprefix⟩ := h.run steady hrun
  obtain rfl : found = more := TodoContents.loaded.inj (hfound.loaded.symm.trans hmore)
  exact ⟨hfound, hprefix⟩

theorem InStep.keepsList (steady : disk.Steady config.path Sound)
    (h : InStep config disk Sound state items) : KeepsList config disk state where
  loaded hrun := by
    obtain ⟨more, hmore, -⟩ := h.run steady hrun
    exact ⟨more, hmore.loaded⟩
  numbered hrun hloaded i item hitem := by
    have hid := (h.reached steady hrun hloaded).1.numbered i item hitem
    exact ⟨hid, toNat_id hid⟩
  mirrored hrun hloaded := (h.reached steady hrun hloaded).1.mirrored
  grows hrun hlater hloaded hmore :=
    ((h.reached steady hrun hloaded).1.reached steady hlater hmore).2
  listed _ hloaded := runFrom_items hloaded
  appended hrun hloaded happend := by
    obtain ⟨rfl, hafter⟩ := append_ok steady (h.reached steady hrun hloaded).1 happend
    exact ⟨hafter.loaded, rfl, rfl, rfl, rfl⟩
  refused hrun hloaded happend := by
    obtain ⟨hafter, hsame⟩ := append_error steady (h.reached steady hrun hloaded).1 happend
    exact ⟨hafter.loaded, hsame⟩
  retried {state mid later after items todo other error item would better healthy done} _ hloaded
      _ _ hstill happend hwould := by
    have hnow : item = nextItem items other := eq_nextItem hstill happend
    have hthen : would = nextItem items todo :=
      eq_nextItem (show (⟨healthy, state.contents⟩ : OpenTodos δ).contents = _ from hloaded) hwould
    rw [hnow, hthen]
    rfl

/-- There is no file, or one with a list whose ids count from one. -/
def HoldsList (config : FileTodos) (disk : Disk δ) (state : δ) : Prop :=
  ((disk.read config.path).runFrom state).1 = .error .notFound ∨
    ∃ bytes items, disk.contentAt? config.path state = some bytes ∧
      TodoItem.listOfBytes? bytes = some items ∧
      ∀ i item, items[i]? = some item → item.id.toNat = i + 1

theorem openOn_of_read {opened : δ} {found : Option (List TodoItem)} {start : δ}
    (hread : (JsonFile.read disk config.path TodoItem.listOfJson?).runFrom start =
      (.ok found, opened)) : config.openOn disk start = ⟨opened, .loaded (found.getD [])⟩ := by
  have hload : (config.load disk : Attempt Empty δ TodoContents).runFrom start =
      (.ok (.loaded (found.getD [])), opened) := by
    rw [load, runFrom_bind, runFrom_outcome, hread]
    rfl
  rw [openOn, hload]

theorem inStep_openOn (steady : disk.Steady config.path Sound) {start : δ} (hsound : Sound start)
    (hholds : HoldsList config disk start) :
    ∃ items, InStep config disk Sound (config.openOn disk start) items := by
  have faithful := steady.toFaithful
  rcases hholds with hmissing | ⟨bytes, items, hcontent, hitems, hids⟩
  · have hread : (JsonFile.read disk config.path TodoItem.listOfJson?).runFrom start =
        (.ok none, start) := by
      rw [JsonFile.runFrom_read faithful hsound, hmissing]
    refine ⟨[], ?_⟩
    rw [openOn_of_read hread]
    refine ⟨hsound, rfl, numbered_nil, ?_⟩
    rw [Mirrors, Disk.contentAt?, hmissing]
    rfl
  · have hread := JsonFile.runFrom_read_of_some faithful hsound hcontent hitems
    refine ⟨items, ?_⟩
    rw [openOn_of_read hread]
    refine ⟨hsound, rfl, fun i item hitem => ?_, ?_⟩
    · rw [← hids i item hitem]
      simp
    · rw [Mirrors, hcontent]
      exact hitems

/-- Whatever calls come and whichever changes of the disk fail, the list and the file stay in step. -/
theorem list_kept (config : FileTodos) (disk : Disk δ) (Sound : δ → Prop) (start : δ)
    (steady : disk.Steady config.path Sound) (hsound : Sound start)
    (hholds : HoldsList config disk start) : KeepsList config disk (config.openOn disk start) := by
  obtain ⟨items, hstep⟩ := inStep_openOn steady hsound hholds
  exact hstep.keepsList steady

theorem list_kept_below :
    let disk := FileTree.disk.withFaults
    let start : Disk.Faulty FileTree := ⟨FileTree.empty, [none, none, some .tooLong]⟩
    HoldsList ⟨⟨"data/todos.json"⟩⟩ disk start ∧
      KeepsList ⟨⟨"data/todos.json"⟩⟩ disk (openOn ⟨⟨"data/todos.json"⟩⟩ disk start) := by
  intro disk start
  have hholds : HoldsList ⟨⟨"data/todos.json"⟩⟩ disk start := by
    left
    rfl
  have steady := (FileTree.steady ⟨"data/todos.json"⟩).withFaults
  exact ⟨hholds, list_kept _ _ _ _ steady ⟨FileTree.closed_empty, .inl (by decide)⟩ hholds⟩

def stray : FileTodos := ⟨⟨"missing/../todos.json"⟩⟩

def errand : TodoItem := ⟨1, "t", "n", "c", false⟩

/-- The file is there, but nothing is read at the stray path; and a directory is in the way of what is
to be written. -/
def strayStart : FileTree :=
  (FileTree.empty.put ["todos.json"] (.file (JsonFile.content (TodoItem.listToJson [errand])))).put
    ["todos.json.tmp"] .directory

/-- Adding an item fails, but makes the directory, and with it the file is at the path. -/
theorem list_out_of_step :
    ¬ KeepsList stray FileTree.disk (stray.openOn FileTree.disk strayStart) := by
  intro hkeeps
  let start := stray.openOn FileTree.disk strayStart
  let todo : NewTodo := ⟨"a", "b", "c"⟩
  have hloaded : start.contents = .loaded [] := by decide +kernel
  rcases hrun : ((stray.store FileTree.disk).append todo).runFrom start with ⟨outcome, after⟩
  cases outcome with
  | ok item =>
    have hfails : (((stray.store FileTree.disk).append todo).runFrom start).1.isOk = false := by
      decide +kernel
    rw [hrun] at hfails
    cases hfails
  | error error =>
    have hsame := (hkeeps.refused .refl hloaded hrun).2
    have hchanged : FileTree.disk.contentAt? stray.path
        (((stray.store FileTree.disk).append todo).runFrom start).2.disk ≠
          FileTree.disk.contentAt? stray.path start.disk := by
      decide +kernel
    rw [hrun] at hchanged
    exact hchanged hsame

end Gatehouse.FileTodos
