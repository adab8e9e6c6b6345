import Gatehouse.Proofs.Disk.Interruption
import Gatehouse.Proofs.Todo.JsonFile

set_option autoImplicit false

/-!
# To-do lists after a crash

The process that keeps a list may stop at any time, also while it replaces the file, and another one
opens the file later. It finds the list as it was before or after the item that was being added, and
every item that has been acknowledged.
-/

namespace Gatehouse.FileTodos

open Attempt FileTree

def found (config : FileTodos) (tree : FileTree) : TodoContents :=
  (config.openOn FileTree.disk tree).contents

/-- A process makes a call while it runs; at any time another one may take its place, with other
fates ahead, and opens the file again. -/
inductive Next (config : FileTodos) (state : OpenTodos Interruptible) :
    OpenTodos Interruptible → Prop
  | called (running : state.disk.stopped = false) (call : Call) :
      Next config state (call.leaves config Interruptible.disk state)
  | reopened (fates : List Fate) :
      Next config state (config.openOn Interruptible.disk ⟨state.disk.tree, fates, false⟩)

abbrev Lives (config : FileTodos) : OpenTodos Interruptible → OpenTodos Interruptible → Prop :=
  Relation.ReflTransGen config.Next

/-- What comes of a store that is first opened on a tree. -/
def Reaches (config : FileTodos) (tree : FileTree) (state : OpenTodos Interruptible) : Prop :=
  ∃ fates, config.Lives (config.openOn Interruptible.disk ⟨tree, fates, false⟩) state

/-- The list in a file through any calls and crashes, and any changes that fail. -/
structure SurvivesCrashes (config : FileTodos) (tree : FileTree) : Prop where
  mirrored {state : OpenTodos Interruptible} : config.Reaches tree state →
    state.disk.stopped = false → state.contents = config.found state.disk.tree
  listed {state : OpenTodos Interruptible} : config.Reaches tree state →
    (((config.store Interruptible.disk).list.runFrom state).2).disk = state.disk
  replaced {state after : OpenTodos Interruptible} {items : List TodoItem} {todo : NewTodo}
      {outcome : Except TodoError TodoItem} : config.Reaches tree state →
    state.disk.stopped = false → state.contents = .loaded items →
    ((config.store Interruptible.disk).append todo).runFrom state = (outcome, after) →
    Interruptible.Replaces config.path
        (JsonFile.content (TodoItem.listToJson (items ++ [nextItem items todo])))
        state.disk.tree outcome.isOk after.disk ∧
      (config.found after.disk.tree = .loaded items ∨
        config.found after.disk.tree = .loaded (items ++ [nextItem items todo]))
  /-- A file that holds no list is left alone. -/
  unavailable {state after : OpenTodos Interruptible} {reason : String} {todo : NewTodo}
      {outcome : Except TodoError TodoItem} : config.Reaches tree state →
    state.disk.stopped = false → state.contents = .unavailable reason →
    ((config.store Interruptible.disk).append todo).runFrom state = (outcome, after) →
    outcome = .error (.unavailable reason) ∧ after.disk = state.disk
  kept {state later : OpenTodos Interruptible} {items : List TodoItem} :
    config.Reaches tree state → config.Lives state later →
    config.found state.disk.tree = .loaded items →
    ∃ more, config.found later.disk.tree = .loaded more ∧ items <+: more
  acknowledged {state after later : OpenTodos Interruptible} {todo : NewTodo} {item : TodoItem} :
    config.Reaches tree state → state.disk.stopped = false →
    ((config.store Interruptible.disk).append todo).runFrom state = (.ok item, after) →
    config.Lives after later →
    ∃ items, config.found later.disk.tree = .loaded items ∧ item ∈ items

variable {config : FileTodos} {tree : FileTree} {state after later : OpenTodos Interruptible}
  {items : List TodoItem} {todo : NewTodo}

theorem found_eq (config : FileTodos) (tree : FileTree) :
    config.found tree = contentsOf
      (JsonFile.valueOf config.path TodoItem.listOfJson? (tree.readFile config.path)) := by
  rw [found, openOn, runFrom_load rfl]
  rfl

theorem runFrom_load_interruptible {ε : Type} (disk : Interruptible) :
    (config.load Interruptible.disk : Attempt ε Interruptible TodoContents).runFrom disk =
      (.ok (config.found disk.tree), disk) := by
  rw [runFrom_load rfl, found_eq]
  rfl

theorem openOn_interruptible (config : FileTodos) (disk : Interruptible) :
    config.openOn Interruptible.disk disk = ⟨disk, config.found disk.tree⟩ := by
  rw [openOn, runFrom_load_interruptible]

theorem reaches_loaded (hfound : config.found tree = .loaded items) (fates : List Fate) :
    config.Reaches tree ⟨⟨tree, fates, false⟩, .loaded items⟩ := by
  refine ⟨fates, ?_⟩
  rw [openOn_interruptible, hfound]

theorem found_congr {other : FileTree}
    (h : other.readFile config.path = tree.readFile config.path) :
    config.found other = config.found tree := by
  rw [found_eq, found_eq, h]

theorem found_of_content
    (h : tree.readFile config.path = .ok (JsonFile.content (TodoItem.listToJson items))) :
    config.found tree = .loaded items := by
  have hitems : (Json.parse? (JsonFile.content (TodoItem.listToJson items))).bind
      TodoItem.listOfJson? = some items := TodoItem.listOfBytes?_content items
  rw [found_eq, h, JsonFile.valueOf, hitems]
  rfl

/-- What stays true of a process and its file. -/
structure Holds (config : FileTodos) (state : OpenTodos Interruptible) : Prop where
  undisturbed : Undisturbed config.path state.disk.tree
  mirrored : state.disk.stopped = false → state.contents = config.found state.disk.tree

theorem runFrom_items_unavailable {reason : String}
    (hcontents : state.contents = .unavailable reason)
    (hfound : state.contents = config.found state.disk.tree) :
    (config.items Interruptible.disk).runFrom state = (.error (.unavailable reason), state) := by
  rw [runFrom_items_of_unavailable hcontents rfl, openOn_interruptible, ← hfound]
  exact Prod.ext (congrArg itemsOf hcontents) rfl

theorem list_disk (config : FileTodos) (state : OpenTodos Interruptible) :
    ((config.items Interruptible.disk).runFrom state).2.disk = state.disk := by
  cases hcontents : state.contents with
  | loaded items => rw [runFrom_items hcontents]
  | unavailable reason => rw [runFrom_items_of_unavailable hcontents rfl, openOn_interruptible]

theorem list_leaves (hfound : state.contents = config.found state.disk.tree) :
    ((config.items Interruptible.disk).runFrom state).2 = state := by
  cases hcontents : state.contents with
  | loaded items => rw [runFrom_items hcontents]
  | unavailable reason => rw [runFrom_items_unavailable hcontents hfound]

theorem append_unavailable {reason : String} (hcontents : state.contents = .unavailable reason)
    (hfound : state.contents = config.found state.disk.tree) (todo : NewTodo) :
    (config.append Interruptible.disk todo).runFrom state =
      (.error (.unavailable reason), state) := by
  rw [append, runFrom_bind, runFrom_items_unavailable hcontents hfound]

theorem append_loaded (h : Holds config state) (hrunning : state.disk.stopped = false)
    (hloaded : state.contents = .loaded items) {outcome : Except TodoError TodoItem}
    (hrun : (config.append Interruptible.disk todo).runFrom state = (outcome, after)) :
    Holds config after ∧
      Interruptible.Replaces config.path
        (JsonFile.content (TodoItem.listToJson (items ++ [nextItem items todo])))
        state.disk.tree outcome.isOk after.disk := by
  have hfound := (h.mirrored hrunning).symm.trans hloaded
  rw [runFrom_append hloaded] at hrun
  rcases hwrite : (JsonFile.write Interruptible.disk config.path
    (TodoItem.listToJson (items ++ [nextItem items todo]))).runFrom state.disk with ⟨written, left⟩
  obtain ⟨hundisturbed, hreplaces⟩ := Interruptible.replaces_write h.undisturbed hwrite
  rw [hwrite] at hrun
  cases written with
  | ok _ =>
    cases hrun
    exact ⟨⟨hundisturbed, fun hstill => (found_of_content (hreplaces.told hstill)).symm⟩,
      hreplaces⟩
  | error error =>
    cases hrun
    refine ⟨⟨hundisturbed, fun hstill => ?_⟩, hreplaces⟩
    exact hfound.symm.trans (found_congr (hreplaces.told hstill)).symm

theorem found_of_replaces {before : FileTree} {more : List TodoItem} {succeeds : Bool}
    {disk : Interruptible} (hfound : config.found before = .loaded items)
    (h : Interruptible.Replaces config.path (JsonFile.content (TodoItem.listToJson more)) before
      succeeds disk) :
    config.found disk.tree = .loaded items ∨ config.found disk.tree = .loaded more := by
  rcases h.oldOrNew with hold | hnew
  · exact .inl ((found_congr hold).trans hfound)
  · exact .inr (found_of_content hnew)

/-- A list is found again, perhaps with more items at its end. -/
def FoundAgain (before after : TodoContents) : Prop :=
  ∀ items, before = .loaded items → ∃ more, after = .loaded more ∧ items <+: more

theorem FoundAgain.refl (contents : TodoContents) : FoundAgain contents contents :=
  fun items h => ⟨items, h, List.prefix_refl items⟩

theorem FoundAgain.trans {first second third : TodoContents} (h : FoundAgain first second)
    (h' : FoundAgain second third) : FoundAgain first third := by
  intro items hitems
  obtain ⟨more, hmore, hprefix⟩ := h items hitems
  obtain ⟨most, hmost, hprefix'⟩ := h' more hmore
  exact ⟨most, hmost, hprefix.trans hprefix'⟩

theorem holds_openOn (disk : Interruptible) (h : Undisturbed config.path disk.tree) :
    Holds config (config.openOn Interruptible.disk disk) := by
  rw [openOn_interruptible]
  exact ⟨h, fun _ => rfl⟩

theorem Holds.append (h : Holds config state) (hrunning : state.disk.stopped = false)
    (todo : NewTodo) :
    let after := ((config.append Interruptible.disk todo).runFrom state).2
    Holds config after ∧
      FoundAgain (config.found state.disk.tree) (config.found after.disk.tree) := by
  have hfound := h.mirrored hrunning
  rcases hrun : (config.append Interruptible.disk todo).runFrom state with ⟨outcome, after⟩
  dsimp only
  cases hcontents : state.contents with
  | unavailable reason =>
    cases hrun.symm.trans (append_unavailable hcontents hfound todo)
    exact ⟨h, .refl _⟩
  | loaded items =>
    obtain ⟨hafter, hreplaces⟩ := append_loaded h hrunning hcontents hrun
    refine ⟨hafter, fun held hheld => ?_⟩
    obtain rfl : items = held :=
      TodoContents.loaded.inj (hcontents.symm.trans (hfound.trans hheld))
    rcases found_of_replaces hheld hreplaces with hold | hnew
    · exact ⟨items, hold, List.prefix_refl items⟩
    · exact ⟨_, hnew, List.prefix_append items _⟩

theorem Holds.leaves (h : Holds config state) (hrunning : state.disk.stopped = false)
    (call : Call) : Holds config (call.leaves config Interruptible.disk state) ∧
      FoundAgain (config.found state.disk.tree)
        (config.found (call.leaves config Interruptible.disk state).disk.tree) := by
  cases call with
  | list =>
    have hleaves : Call.list.leaves config Interruptible.disk state = state :=
      list_leaves (h.mirrored hrunning)
    rw [hleaves]
    exact ⟨h, .refl _⟩
  | append todo => exact h.append hrunning todo

theorem Holds.next (h : Holds config state) (hnext : config.Next state after) :
    Holds config after ∧
      FoundAgain (config.found state.disk.tree) (config.found after.disk.tree) := by
  cases hnext with
  | called running call => exact h.leaves running call
  | reopened fates =>
    refine ⟨holds_openOn _ h.undisturbed, ?_⟩
    rw [openOn_interruptible]
    exact .refl _

theorem Holds.lives (h : Holds config state) (hlives : config.Lives state later) :
    Holds config later ∧
      FoundAgain (config.found state.disk.tree) (config.found later.disk.tree) := by
  induction hlives with
  | refl => exact ⟨h, .refl _⟩
  | tail _ hnext ih =>
    obtain ⟨hlater, hkeeps⟩ := ih
    obtain ⟨hmost, hmore⟩ := hlater.next hnext
    exact ⟨hmost, hkeeps.trans hmore⟩

theorem Holds.of_reaches (h : Undisturbed config.path tree) (hreaches : config.Reaches tree state) :
    Holds config state := by
  obtain ⟨fates, hlives⟩ := hreaches
  have hopened := holds_openOn ⟨tree, fates, false⟩ h
  exact (hopened.lives hlives).1

theorem survivesCrashes (h : Undisturbed config.path tree) : config.SurvivesCrashes tree where
  mirrored hreaches := (Holds.of_reaches h hreaches).mirrored
  listed _ := list_disk config _
  replaced hreaches hrunning hloaded hrun := by
    have holds := Holds.of_reaches h hreaches
    obtain ⟨-, hreplaces⟩ := append_loaded holds hrunning hloaded hrun
    have hfound := (holds.mirrored hrunning).symm.trans hloaded
    exact ⟨hreplaces, found_of_replaces hfound hreplaces⟩
  unavailable hreaches hrunning hcontents hrun := by
    have holds := Holds.of_reaches h hreaches
    have happend := append_unavailable hcontents (holds.mirrored hrunning)
    cases hrun.symm.trans (happend _)
    exact ⟨rfl, rfl⟩
  kept hreaches hlives hfound := ((Holds.of_reaches h hreaches).lives hlives).2 _ hfound
  acknowledged {state after later todo item} hreaches hrunning hrun hlives := by
    have holds := Holds.of_reaches h hreaches
    cases hcontents : state.contents with
    | unavailable reason =>
      have happend := append_unavailable hcontents (holds.mirrored hrunning) todo
      cases hrun.symm.trans happend
    | loaded items =>
      obtain ⟨hafter, hreplaces⟩ := append_loaded holds hrunning hcontents hrun
      have hstill := hreplaces.returned rfl
      have hfound := found_of_content (hreplaces.told hstill)
      obtain ⟨more, hmore, hprefix⟩ := (hafter.lives hlives).2 _ hfound
      refine ⟨more, hmore, hprefix.subset ?_⟩
      rw [eq_nextItem hcontents hrun]
      exact List.mem_append_right items List.mem_cons_self

theorem content_ne {first second : NewTodo} (hne : first ≠ second) :
    JsonFile.content (TodoItem.listToJson (items ++ [nextItem items first])) ≠
      JsonFile.content (TodoItem.listToJson (items ++ [nextItem items second])) := by
  intro hcontent
  have hlists := congrArg TodoItem.listOfBytes? hcontent
  rw [TodoItem.listOfBytes?_content, TodoItem.listOfBytes?_content] at hlists
  have hitems := List.append_cancel_left (Option.some.inj hlists)
  obtain ⟨-, htitle, htime, htext, -⟩ := TodoItem.mk.inj (List.cons.inj hitems).1
  obtain ⟨title, time, text⟩ := first
  obtain ⟨title', time', text'⟩ := second
  exact hne (NewTodo.mk.injEq .. ▸ ⟨htitle, htime, htext⟩)

theorem append_stops {parent : FilePath} (hparent : config.path.parent? = some parent) (n : Nat)
    (items : List TodoItem) (todo : NewTodo) :
    (config.append Interruptible.disk todo).runFrom
        ⟨⟨tree, [.stops (.directories n)], false⟩, .loaded items⟩ =
      (.error (ofFileError (.io config.path)),
        ⟨⟨makeDirs parent n tree, [], true⟩, .loaded items⟩) := by
  have hloaded : (OpenTodos.mk (Interruptible.mk tree [.stops (.directories n)] false)
    (.loaded items)).contents = .loaded items := rfl
  rw [runFrom_append hloaded]
  dsimp only
  rw [Interruptible.runFrom_write_stops hparent]

theorem SurvivesCrashes.undisturbed (h : config.SurvivesCrashes tree)
    (hfound : config.found tree = .loaded items) : Undisturbed config.path tree := by
  intro parent n hparent
  have hstops : ∀ todo : NewTodo,
      (makeDirs parent n tree).readFile config.path = tree.readFile config.path ∨
        (makeDirs parent n tree).readFile config.path =
          .ok (JsonFile.content (TodoItem.listToJson (items ++ [nextItem items todo]))) := by
    intro todo
    have hreaches := reaches_loaded hfound [.stops (.directories n)]
    exact (h.replaced hreaches rfl rfl (append_stops hparent n items todo)).1.oldOrNew
  rcases hstops ⟨"", "", ""⟩ with hold | hfirst
  · exact hold
  · rcases hstops ⟨"other", "", ""⟩ with hold | hsecond
    · exact hold
    · have hcontents := Except.ok.inj (hfirst.symm.trans hsecond)
      exact absurd hcontents (content_ne (by decide))

theorem survivesCrashes_iff (hfound : config.found tree = .loaded items) :
    config.SurvivesCrashes tree ↔ Undisturbed config.path tree :=
  ⟨fun h => h.undisturbed hfound, survivesCrashes⟩

end Gatehouse.FileTodos
