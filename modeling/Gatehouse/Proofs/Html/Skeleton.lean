import Gatehouse.Html.Pages

set_option autoImplicit false

/-!
# The markup of a page

Which tags a page has, and where its quoted values begin and end, is told by the shape of its view:
what kind of page it is, what notices of which levels there are, and which items are done. Nothing
that stands in a name, in a notice or in an item makes a difference.
-/

namespace Gatehouse

/-- A view without its texts and numbers. -/
inductive View.Shape where
  | game
  | profile
  | login (hasError : Bool) (levels : List FlashLevel)
  | register (hasError : Bool) (levels : List FlashLevel)
  | welcome (levels : List FlashLevel)
  | success (levels : List FlashLevel)
  | todoList (completed : List Bool)
  | newTodo
  deriving DecidableEq, Repr

def View.shape : View → View.Shape
  | .game _ _ => .game
  | .profile _ _ => .profile
  | .login error notices => .login error.isSome (notices.map Flash.level)
  | .register error notices => .register error.isSome (notices.map Flash.level)
  | .welcome notices => .welcome (notices.map Flash.level)
  | .success notices => .success (notices.map Flash.level)
  | .todoList todos => .todoList (todos.map TodoItem.completed)
  | .newTodo => .newTodo

/-- The characters that open and close tags and quoted values. -/
def isMarkupChar (c : Char) : Bool :=
  c == '<' || c == '>' || c == '"' || c == '\''

def skeleton (cs : List Char) : List Char :=
  cs.filter isMarkupChar

theorem skeleton_append (left right : List Char) :
    skeleton (left ++ right) = skeleton left ++ skeleton right :=
  List.filter_append left right

theorem skeleton_escapeHtmlChar (c : Char) : skeleton (escapeHtmlChar c) = [] := by
  unfold escapeHtmlChar
  by_cases hopen : c = '<'
  · rw [if_pos hopen]
    decide
  by_cases hclose : c = '>'
  · rw [if_neg hopen, if_pos hclose]
    decide
  by_cases hand : c = '&'
  · rw [if_neg hopen, if_neg hclose, if_pos hand]
    decide
  by_cases hdouble : c = '"'
  · rw [if_neg hopen, if_neg hclose, if_neg hand, if_pos hdouble]
    decide
  by_cases hsingle : c = '\''
  · rw [if_neg hopen, if_neg hclose, if_neg hand, if_neg hdouble, if_pos hsingle]
    decide
  · have hplain : isMarkupChar c = false := by
      simp [isMarkupChar, hopen, hclose, hdouble, hsingle]
    rw [if_neg hopen, if_neg hclose, if_neg hand, if_neg hdouble, if_neg hsingle]
    simp [skeleton, hplain]

theorem skeleton_escapeHtml (cs : List Char) : skeleton (escapeHtml cs) = [] := by
  induction cs with
  | nil => rfl
  | cons c cs ih =>
    rw [escapeHtml, List.flatMap_cons, skeleton_append, skeleton_escapeHtmlChar]
    exact ih

/-- A piece with the text taken out. -/
def Piece.bare : Piece → Piece
  | .markup source => .markup source
  | .text _ => .text ""

theorem Piece.skeleton_bare (piece : Piece) : skeleton piece.bare.chars = skeleton piece.chars := by
  cases piece with
  | markup source => rfl
  | text content => exact (skeleton_escapeHtml content.toList).symm

namespace Markup

def bare (pieces : Markup) : Markup :=
  pieces.map Piece.bare

@[simp] theorem bare_nil : bare [] = [] := rfl

@[simp] theorem bare_cons (piece : Piece) (pieces : Markup) :
    bare (piece :: pieces) = piece.bare :: bare pieces := rfl

@[simp] theorem bare_append (left right : Markup) :
    bare (left ++ right) = bare left ++ bare right :=
  List.map_append

theorem skeleton_bare (pieces : Markup) : skeleton pieces.bare.chars = skeleton pieces.chars := by
  induction pieces with
  | nil => rfl
  | cons piece pieces ih =>
    rw [bare_cons, chars_cons, chars_cons, skeleton_append, skeleton_append, piece.skeleton_bare,
      ih]

theorem skeleton_eq_of_bare {left right : Markup} (h : left.bare = right.bare) :
    skeleton left.chars = skeleton right.chars := by
  rw [← left.skeleton_bare, h, right.skeleton_bare]

end Markup

namespace Html

open Markup

theorem bare_layout {title : String} {content scripts other scripts' : Markup}
    (hcontent : content.bare = other.bare) (hscripts : scripts.bare = scripts'.bare) :
    (layout title content scripts).bare = (layout title other scripts').bare := by
  simp only [layout, bare_append, hcontent, hscripts]

theorem bare_flashes {notices others : List Flash}
    (h : notices.map Flash.level = others.map Flash.level) :
    (flashes notices).bare = (flashes others).bare := by
  induction notices generalizing others with
  | nil =>
    rw [List.map_nil, eq_comm, List.map_eq_nil_iff] at h
    rw [h]
  | cons notice notices ih =>
    cases others with
    | nil => cases h
    | cons other others =>
      rw [List.map_cons, List.map_cons, List.cons.injEq] at h
      have hrest : bare (notices.flatMap flash) = bare (others.flatMap flash) := ih h.2
      simp only [flashes, List.flatMap_cons, bare_append, hrest]
      rfl

theorem bare_errorParagraph {error other : Option String} (h : error.isSome = other.isSome) :
    (errorParagraph error).bare = (errorParagraph other).bare := by
  cases error with
  | none =>
    cases other with
    | none => rfl
    | some reason => cases h
  | some reason =>
    cases other with
    | none => cases h
    | some reason' => rfl

theorem bare_credentialsForm (heading action button aside : String) {error other : Option String}
    {notices others : List Flash} (herror : error.isSome = other.isSome)
    (hnotices : notices.map Flash.level = others.map Flash.level) :
    (credentialsForm heading action button aside error notices).bare =
      (credentialsForm heading action button aside other others).bare := by
  simp only [credentialsForm, bare_append, bare_flashes hnotices, bare_errorParagraph herror]

theorem bare_todoItem {item other : TodoItem} (h : item.completed = other.completed) :
    (todoItem item).bare = (todoItem other).bare := by
  simp only [todoItem, h]
  rfl

theorem bare_flatMap_todoItem {items others : List TodoItem}
    (h : items.map TodoItem.completed = others.map TodoItem.completed) :
    bare (items.flatMap todoItem) = bare (others.flatMap todoItem) := by
  induction items generalizing others with
  | nil =>
    rw [List.map_nil, eq_comm, List.map_eq_nil_iff] at h
    rw [h]
  | cons item items ih =>
    cases others with
    | nil => cases h
    | cons other others =>
      rw [List.map_cons, List.map_cons, List.cons.injEq] at h
      simp only [List.flatMap_cons, bare_append, bare_todoItem h.1, ih h.2]

theorem bare_todoItems {items others : List TodoItem}
    (h : items.map TodoItem.completed = others.map TodoItem.completed) :
    (todoItems items).bare = (todoItems others).bare := by
  cases items with
  | nil =>
    rw [List.map_nil, eq_comm, List.map_eq_nil_iff] at h
    rw [h]
  | cons item items =>
    cases others with
    | nil => cases h
    | cons other others => simp only [todoItems, bare_append, bare_flatMap_todoItem h]

theorem bare_ofView {view other : View} (h : view.shape = other.shape) :
    (ofView view).bare = (ofView other).bare := by
  cases view with
  | game board score =>
    cases other <;> cases h
    exact bare_layout (by simp only [bare_append, bare_cons, bare_nil, Piece.bare]) rfl
  | profile username score =>
    cases other <;> cases h
    exact bare_layout (by simp only [bare_append, bare_cons, bare_nil, Piece.bare]) rfl
  | login error notices =>
    cases other <;> simp only [View.shape, reduceCtorEq, View.Shape.login.injEq] at h
    exact bare_layout (bare_credentialsForm _ _ _ _ h.1 h.2) rfl
  | register error notices =>
    cases other <;> simp only [View.shape, reduceCtorEq, View.Shape.register.injEq] at h
    exact bare_layout (bare_credentialsForm _ _ _ _ h.1 h.2) rfl
  | welcome notices =>
    cases other <;> simp only [View.shape, reduceCtorEq, View.Shape.welcome.injEq] at h
    refine bare_layout ?_ rfl
    simp only [bare_append, bare_flashes h]
  | success notices =>
    cases other <;> simp only [View.shape, reduceCtorEq, View.Shape.success.injEq] at h
    refine bare_layout ?_ rfl
    simp only [bare_append, bare_flashes h]
  | todoList items =>
    cases other <;> simp only [View.shape, reduceCtorEq, View.Shape.todoList.injEq] at h
    refine bare_layout ?_ rfl
    simp only [bare_append, bare_todoItems h]
  | newTodo =>
    cases other <;> cases h
    rfl

/-- Whatever the texts and numbers of two views of one shape are, their pages have the same markup
characters in the same order. -/
theorem markup_not_injected (view other : View) (h : view.shape = other.shape) :
    ∃ page page', renderer.render view = .ok page ∧ renderer.render other = .ok page' ∧
      skeleton page.toList = skeleton page'.toList := by
  refine ⟨_, _, rfl, rfl, ?_⟩
  rw [toDocument, toDocument, String.toList_ofList, String.toList_ofList]
  exact skeleton_eq_of_bare (bare_ofView h)

theorem markup_not_injected_by_script :
    let hostile : View := .login (some "<script>alert('x')</script>") [⟨.info, "\"><b>"⟩]
    let empty : View := .login (some "") [⟨.info, ""⟩]
    hostile.shape = empty.shape ∧
      ∃ page page', renderer.render hostile = .ok page ∧ renderer.render empty = .ok page' ∧
        skeleton page.toList = skeleton page'.toList :=
  ⟨rfl, markup_not_injected _ _ rfl⟩

end Html

end Gatehouse
