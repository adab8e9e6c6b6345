import Gatehouse.Proofs.Html.Skeleton
import Gatehouse.Proofs.Text.Numeral
import Gatehouse.Text.Split

set_option autoImplicit false

/-!
# Reading a page back

A page tells which view it was made from. Each part of a page says where it ends: a text in a page
has none of the characters that open and close tags, a number none of the dots, and what stands
behind a list does not begin like one more entry. So the parts can be read off one by one, from the
title to the end.
-/

namespace Gatehouse

/-- What is written, and where it ends, can be told whatever stands behind it. -/
def Delimited {α : Type} (write : α → List Char) : Prop :=
  ∀ ⦃a b : α⦄ ⦃rest rest' : List Char⦄, write a ++ rest = write b ++ rest' → a = b ∧ rest = rest'

/-- A text that does not begin like something written. -/
def Ends {α : Type} (write : α → List Char) (rest : List Char) : Prop :=
  ∀ a more, write a ++ more ≠ rest

theorem Delimited.flatMap {α : Type} {write : α → List Char} (hwrite : Delimited write)
    {as bs : List α} {rest rest' : List Char} (hrest : Ends write rest) (hrest' : Ends write rest')
    (h : as.flatMap write ++ rest = bs.flatMap write ++ rest') : as = bs ∧ rest = rest' := by
  induction as generalizing bs with
  | nil =>
    cases bs with
    | nil => exact ⟨rfl, h⟩
    | cons b bs =>
      rw [List.flatMap_cons, List.append_assoc] at h
      exact absurd h.symm (hrest b _)
  | cons a as ih =>
    cases bs with
    | nil =>
      rw [List.flatMap_cons, List.append_assoc] at h
      exact absurd h (hrest' a _)
    | cons b bs =>
      rw [List.flatMap_cons, List.flatMap_cons, List.append_assoc, List.append_assoc] at h
      obtain ⟨hhead, htail⟩ := hwrite h
      obtain ⟨has, hend⟩ := ih htail
      exact ⟨by rw [hhead, has], hend⟩

/-- Where every entry begins with the same sign, a text that does not begin with it ends the
entries. -/
theorem ends_of_take {α : Type} {write : α → List Char} {sign rest : List Char}
    (hsign : ∀ a, sign <+: write a) (hrest : rest.take sign.length ≠ sign) : Ends write rest := by
  intro a more h
  have hbegin : sign <+: rest := h ▸ (hsign a).trans (List.prefix_append _ _)
  exact hrest (List.prefix_iff_eq_take.1 hbegin).symm

theorem append_separator_inj {separator : Char} {xs ys rest rest' : List Char}
    (hxs : separator ∉ xs) (hys : separator ∉ ys)
    (h : xs ++ separator :: rest = ys ++ separator :: rest') : xs = ys ∧ rest = rest' := by
  have hpieces := congrArg (Text.splitOn separator) h
  rw [Text.splitOn_append_cons _ _ _ hxs, Text.splitOn_append_cons _ _ _ hys] at hpieces
  obtain rfl : xs = ys := (List.cons.inj hpieces).1
  exact ⟨rfl, (List.cons.inj (List.append_cancel_left h)).2⟩

/-- The first character of an escaped text, and what stands behind it. -/
def readChar : List Char → Option (Char × List Char)
  | '&' :: '#' :: '6' :: '0' :: ';' :: rest => some ('<', rest)
  | '&' :: '#' :: '6' :: '2' :: ';' :: rest => some ('>', rest)
  | '&' :: '#' :: '3' :: '8' :: ';' :: rest => some ('&', rest)
  | '&' :: '#' :: '3' :: '4' :: ';' :: rest => some ('"', rest)
  | '&' :: '#' :: '3' :: '9' :: ';' :: rest => some ('\'', rest)
  | c :: rest => some (c, rest)
  | [] => none

theorem readChar_escapeHtmlChar (c : Char) (rest : List Char) :
    readChar (escapeHtmlChar c ++ rest) = some (c, rest) := by
  by_cases hopen : c = '<'
  · rw [hopen]
    rfl
  by_cases hclose : c = '>'
  · rw [hclose]
    rfl
  by_cases hand : c = '&'
  · rw [hand]
    rfl
  by_cases hdouble : c = '"'
  · rw [hdouble]
    rfl
  by_cases hsingle : c = '\''
  · rw [hsingle]
    rfl
  · have hplain : escapeHtmlChar c = [c] := by
      rw [escapeHtmlChar, if_neg hopen, if_neg hclose, if_neg hand, if_neg hdouble, if_neg hsingle]
    rw [hplain, List.singleton_append]
    unfold readChar
    split <;> simp_all

theorem escapeHtmlChar_delimited : Delimited escapeHtmlChar := by
  intro a b rest rest' h
  have hread := congrArg readChar h
  rw [readChar_escapeHtmlChar, readChar_escapeHtmlChar] at hread
  exact Prod.mk.inj (Option.some.inj hread)

theorem ends_escapeHtmlChar {c : Char} (hc : isMarkupChar c = true) (rest : List Char) :
    Ends escapeHtmlChar (c :: rest) := by
  intro a more h
  cases hcs : escapeHtmlChar a with
  | nil =>
    have hread := readChar_escapeHtmlChar a []
    rw [hcs] at hread
    cases hread
  | cons d ds =>
    rw [hcs, List.cons_append, List.cons.injEq] at h
    have hnone := skeleton_escapeHtmlChar a
    rw [hcs, h.1, skeleton, List.filter_cons_of_pos hc] at hnone
    cases hnone

theorem text_inj {text other markup : String} {rest rest' : List Char}
    (hmarkup : markup.toList.head?.any isMarkupChar = true)
    (h : escapeHtml text.toList ++ (markup.toList ++ rest) =
      escapeHtml other.toList ++ (markup.toList ++ rest')) :
    text = other ∧ rest = rest' := by
  cases hsource : markup.toList with
  | nil =>
    rw [hsource] at hmarkup
    cases hmarkup
  | cons c cs =>
    rw [hsource] at h hmarkup
    obtain ⟨htext, hrest⟩ := escapeHtmlChar_delimited.flatMap
      (ends_escapeHtmlChar hmarkup _) (ends_escapeHtmlChar hmarkup _) h
    have hrest : (c :: cs) ++ rest = (c :: cs) ++ rest' := hrest
    exact ⟨String.toList_injective htext, List.append_cancel_left hrest⟩

theorem escapeHtml_injective : Function.Injective escapeHtml := by
  intro cs ds h
  have hends : Ends escapeHtmlChar [] := by
    intro c more hc
    have hread := readChar_escapeHtmlChar c more
    rw [hc] at hread
    cases hread
  exact (escapeHtmlChar_delimited.flatMap hends hends (congrArg (· ++ []) h)).1

/-- A text that looks like a character reference is another text than the character. -/
example : escapeHtml "&#60;".toList ≠ escapeHtml "<".toList := by decide

theorem toString_nat_inj {m n : Nat} (h : toString m = toString n) : m = n := by
  have hdigits : Nat.toDigits 10 m = Nat.toDigits 10 n := by
    rw [← Nat.toList_repr, ← Nat.toList_repr]
    exact congrArg String.toList h
  have hread := congrArg Text.natural? hdigits
  rw [Text.natural?_toDigits, Text.natural?_toDigits] at hread
  exact Option.some.inj hread

theorem toString_int64_inj {m n : Int64} (h : toString m.toInt = toString n.toInt) : m = n := by
  have hread := Text.signed?_toString m.toInt
  rw [h, Text.signed?_toString] at hread
  exact Int64.toInt_inj.1 (Option.some.inj hread).symm

theorem toString_uint32_inj {m n : UInt32} (h : toString m.toNat = toString n.toNat) : m = n :=
  UInt32.toNat_inj.1 (toString_nat_inj h)

theorem escapeHtmlChar_of_isDigit {c : Char} (hc : c.isDigit = true) : escapeHtmlChar c = [c] := by
  have hne (d : Char) (hd : d.isDigit = false) : c ≠ d := by
    rintro rfl
    rw [hc] at hd
    cases hd
  rw [escapeHtmlChar, if_neg (hne '<' rfl), if_neg (hne '>' rfl), if_neg (hne '&' rfl),
    if_neg (hne '"' rfl), if_neg (hne '\'' rfl)]

theorem dot_notMem_natural (n : Nat) : '.' ∉ escapeHtml (toString n).toList := by
  intro h
  obtain ⟨c, hmem, hdot⟩ := List.mem_flatMap.1 h
  have hc : c.isDigit = true := by
    rw [show (toString n).toList = Nat.toDigits 10 n from Nat.toList_repr] at hmem
    exact Nat.isDigit_of_mem_toDigits (by decide) (by decide) hmem
  rw [escapeHtmlChar_of_isDigit hc, List.mem_singleton] at hdot
  rw [← hdot] at hc
  cases hc

theorem number_inj {m n : Nat} {rest rest' : List Char}
    (h : escapeHtml (toString m).toList ++ (". ".toList ++ rest) =
      escapeHtml (toString n).toList ++ (". ".toList ++ rest')) : m = n ∧ rest = rest' := by
  have hdot : escapeHtml (toString m).toList ++ '.' :: ' ' :: rest =
      escapeHtml (toString n).toList ++ '.' :: ' ' :: rest' := h
  obtain ⟨hnumber, hrest⟩ :=
    append_separator_inj (dot_notMem_natural m) (dot_notMem_natural n) hdot
  exact ⟨toString_nat_inj (String.toList_injective (escapeHtml_injective hnumber)),
    (List.cons.inj hrest).2⟩

namespace Html

open Markup

theorem chars_flatMap {α : Type} (write : α → Markup) (as : List α) :
    Markup.chars (as.flatMap write) = as.flatMap fun a => (write a).chars := by
  induction as with
  | nil => rfl
  | cons a as ih => rw [List.flatMap_cons, chars_append, ih, List.flatMap_cons]

theorem chars_lines (line next : String) (more : List String) :
    (Markup.lines (line :: next :: more)).chars =
      line.toList ++ '\n' :: (Markup.lines (next :: more)).chars := by
  simp only [Markup.lines, chars_cons, chars_nil, Piece.chars, String.intercalate_cons_cons,
    String.toList_append, List.append_assoc, List.append_nil]
  rfl

theorem flash_delimited : Delimited fun notice => (flash notice).chars := by
  intro a b rest rest' h
  simp only [flash, chars_cons, chars_nil, Piece.chars, List.append_assoc, List.nil_append,
    List.append_cancel_left_eq] at h
  obtain ⟨hname, h⟩ := text_inj (by decide) h
  obtain ⟨hmessage, hrest⟩ := text_inj (by decide) h
  have hlevel : some a.level = some b.level := by
    rw [← FlashLevel.ofName?_name, ← FlashLevel.ofName?_name, hname]
  refine ⟨?_, hrest⟩
  cases a
  cases b
  rw [Flash.mk.injEq]
  exact ⟨Option.some.inj hlevel, hmessage⟩

theorem flashes_inj {notices others : List Flash} {rest rest' : List Char}
    (hrest : rest.take 3 ≠ "\n<d".toList) (hrest' : rest'.take 3 ≠ "\n<d".toList)
    (h : (flashes notices).chars ++ rest = (flashes others).chars ++ rest') :
    notices = others ∧ rest = rest' := by
  have hsign (notice : Flash) : "\n<d".toList <+: (flash notice).chars := ⟨_, rfl⟩
  rw [flashes, flashes, chars_flatMap, chars_flatMap] at h
  exact flash_delimited.flatMap (ends_of_take hsign hrest) (ends_of_take hsign hrest') h

theorem take_errorParagraph (reason : String) (rest : List Char) :
    ((errorParagraph (some reason)).chars ++ rest).take 3 = "\n<p".toList := rfl

theorem errorParagraph_inj {error other : Option String} {rest rest' : List Char}
    (hrest : rest.take 3 ≠ "\n<p".toList) (hrest' : rest'.take 3 ≠ "\n<p".toList)
    (h : (errorParagraph error).chars ++ rest = (errorParagraph other).chars ++ rest') :
    error = other ∧ rest = rest' := by
  cases error with
  | none =>
    cases other with
    | none => exact ⟨rfl, h⟩
    | some reason =>
      have hpiece : rest = _ := h
      rw [hpiece, take_errorParagraph] at hrest
      exact absurd rfl hrest
  | some reason =>
    cases other with
    | none =>
      have hpiece : _ = rest' := h
      rw [← hpiece, take_errorParagraph] at hrest'
      exact absurd rfl hrest'
    | some reason' =>
      simp only [errorParagraph, chars_cons, chars_nil, Piece.chars, List.append_assoc,
        List.nil_append, List.append_cancel_left_eq] at h
      obtain ⟨hreason, h⟩ := text_inj (by decide) h
      exact ⟨congrArg some hreason, h⟩

theorem credentialsForm_chars (heading action button aside : String) :
    ∃ above form : List Char, (∀ rest, (form ++ rest).take 3 = "\n<f".toList) ∧
      ∀ error notices, (credentialsForm heading action button aside error notices).chars =
        above ++ ((flashes notices).chars ++ '\n' :: ((errorParagraph error).chars ++ form)) := by
  refine ⟨?above, ?form, ?begins, fun error notices => ?written⟩
  case written =>
    simp only [credentialsForm, chars_append, List.append_assoc]
    rfl
  case begins =>
    intro rest
    simp only [chars_lines, String.toList_append, List.append_assoc]
    rfl

theorem take_error_or_form (error : Option String) {form : List Char}
    (hform : form.take 3 = "\n<f".toList) :
    ('\n' :: ((errorParagraph error).chars ++ form)).take 3 = "\n\n<".toList := by
  cases error with
  | none =>
    have htwo : form.take 2 = "\n<".toList := by
      rw [show form.take 2 = (form.take 3).take 2 by rw [List.take_take]; rfl, hform]
      rfl
    exact congrArg ('\n' :: ·) htwo
  | some reason => rfl

theorem credentialsForm_delimited (heading action button aside : String) :
    Delimited fun shown : Option String × List Flash =>
      (credentialsForm heading action button aside shown.1 shown.2).chars := by
  intro a b rest rest' h
  obtain ⟨above, form, hform, hchars⟩ := credentialsForm_chars heading action button aside
  simp only [hchars, List.append_assoc, List.cons_append, List.append_cancel_left_eq] at h
  have hnotice (error : Option String) (more : List Char) :
      ('\n' :: ((errorParagraph error).chars ++ (form ++ more))).take 3 ≠ "\n<d".toList := by
    rw [take_error_or_form error (hform more)]
    decide
  have herror (more : List Char) : (form ++ more).take 3 ≠ "\n<p".toList := by
    rw [hform more]
    decide
  obtain ⟨hnotices, hbehind⟩ := flashes_inj (hnotice a.1 rest) (hnotice b.1 rest') h
  obtain ⟨herrors, hrest⟩ :=
    errorParagraph_inj (herror rest) (herror rest') (List.cons.inj hbehind).2
  exact ⟨Prod.ext herrors hnotices, List.append_cancel_left hrest⟩

theorem class_inj {completed other : Bool} {rest rest' : List Char}
    (h : (if completed then " completed" else "").toList ++ ("\">\n        <h2>".toList ++ rest) =
      (if other then " completed" else "").toList ++ ("\">\n        <h2>".toList ++ rest')) :
    completed = other ∧ rest = rest' := by
  cases completed <;> cases other
  · exact ⟨rfl, List.append_cancel_left (List.append_cancel_left h)⟩
  · exact absurd (List.cons.inj h).1 (by decide)
  · exact absurd (List.cons.inj h).1 (by decide)
  · exact ⟨rfl, List.append_cancel_left (List.append_cancel_left h)⟩

theorem todoItem_delimited : Delimited fun item => (todoItem item).chars := by
  intro a b rest rest' h
  simp only [todoItem, chars_cons, chars_nil, Piece.chars, List.append_assoc, List.nil_append,
    List.append_cancel_left_eq] at h
  obtain ⟨hcompleted, h⟩ := class_inj h
  obtain ⟨hid, h⟩ := number_inj h
  obtain ⟨htitle, h⟩ := text_inj (by decide) h
  obtain ⟨htime, h⟩ := text_inj (by decide) h
  obtain ⟨hcontent, hrest⟩ := text_inj (by decide) h
  refine ⟨?_, hrest⟩
  cases a
  cases b
  rw [TodoItem.mk.injEq]
  exact ⟨UInt64.toNat_inj.1 hid, htitle, htime, hcontent, hcompleted⟩

theorem flatMap_todoItem_inj {items others : List TodoItem} {rest rest' : List Char}
    (hrest : rest.take 3 ≠ "\n  ".toList) (hrest' : rest'.take 3 ≠ "\n  ".toList)
    (h : chars (items.flatMap todoItem) ++ rest = chars (others.flatMap todoItem) ++ rest') :
    items = others ∧ rest = rest' := by
  have hsign (item : TodoItem) : "\n  ".toList <+: (todoItem item).chars := ⟨_, rfl⟩
  rw [chars_flatMap, chars_flatMap] at h
  exact todoItem_delimited.flatMap (ends_of_take hsign hrest) (ends_of_take hsign hrest') h

theorem todoItems_delimited : Delimited fun items => (todoItems items).chars := by
  intro items others rest rest' h
  cases items with
  | nil =>
    cases others with
    | nil => exact ⟨rfl, List.append_cancel_left h⟩
    | cons other others =>
      have hbegin : "\n<p".toList = "\n<u".toList := congrArg (List.take 3) h
      exact absurd hbegin (by decide)
  | cons item items =>
    cases others with
    | nil =>
      have hbegin : "\n<u".toList = "\n<p".toList := congrArg (List.take 3) h
      exact absurd hbegin (by decide)
    | cons other others =>
      simp only [todoItems, chars_append, List.append_assoc, List.append_cancel_left_eq] at h
      have hend (more : List Char) :
          ((Markup.lines ["", "</ul>", ""]).chars ++ more).take 3 ≠ "\n  ".toList :=
        (by decide : "\n</".toList ≠ "\n  ".toList)
      obtain ⟨hitems, hrest⟩ := flatMap_todoItem_inj (hend rest) (hend rest') h
      exact ⟨hitems, List.append_cancel_left hrest⟩

/-- The title of a page of this view. -/
def title : View → String
  | .game _ _ => "Minesweeper"
  | .profile _ _ => "Profile"
  | .login _ _ => "Log in"
  | .register _ _ => "Register"
  | .welcome _ => "Welcome"
  | .success _ => "Logged in"
  | .todoList _ => "To-do list"
  | .newTodo => "New to-do"

theorem ofView_eq_layout (view : View) :
    ∃ content scripts, ofView view = layout (title view) content scripts := by
  cases view <;> exact ⟨_, _, rfl⟩

theorem title_inj {view other : View} (h : (ofView view).chars = (ofView other).chars) :
    title view = title other := by
  have hopen (view : View) : '<' ∉ (title view).toList := by
    cases view <;> rw [title] <;> decide
  obtain ⟨content, scripts, hview⟩ := ofView_eq_layout view
  obtain ⟨content', scripts', hother⟩ := ofView_eq_layout other
  rw [hview, hother] at h
  simp only [layout, chars_append, chars_cons, chars_nil, Piece.chars, List.append_assoc,
    List.nil_append, List.append_cancel_left_eq, chars_lines] at h
  exact String.toList_injective (append_separator_inj (hopen view) (hopen other) h).1

theorem layout_inj {α : Type} {title : String} {content : α → Markup} {scripts : Markup}
    (hcontent : Delimited fun a => (content a).chars) {a b : α}
    (h : (layout title (content a) scripts).chars = (layout title (content b) scripts).chars) :
    a = b := by
  simp only [layout, chars_append, List.append_assoc, List.append_cancel_left_eq] at h
  exact (hcontent h).1

theorem game_inj {board other : Board} {score score' : Int64}
    (h : (game board score).chars = (game other score').chars) :
    board = other ∧ score = score' := by
  simp only [game, layout, chars_append, chars_cons, chars_nil, Piece.chars, List.append_assoc,
    List.nil_append, List.append_cancel_left_eq, chars_lines] at h
  obtain ⟨hmines, h⟩ := text_inj (by decide) h
  obtain ⟨hscore, h⟩ := text_inj (by decide) (List.append_cancel_left h)
  obtain ⟨hrows, h⟩ := text_inj (by decide) (List.append_cancel_left h)
  obtain ⟨hcols, -⟩ := text_inj (by decide) h
  refine ⟨?_, toString_int64_inj hscore⟩
  cases board
  cases other
  rw [Board.mk.injEq]
  exact ⟨toString_uint32_inj hrows, toString_uint32_inj hcols, toString_uint32_inj hmines⟩

theorem profile_inj {name other : Username} {score score' : Int64}
    (h : (profile name score).chars = (profile other score').chars) :
    name = other ∧ score = score' := by
  simp only [profile, layout, chars_append, chars_cons, chars_nil, Piece.chars, List.append_assoc,
    List.nil_append, List.append_cancel_left_eq, chars_lines] at h
  obtain ⟨hname, h⟩ := text_inj (by decide) h
  obtain ⟨hscore, -⟩ := text_inj (by decide) (List.append_cancel_left h)
  exact ⟨Username.text_inj hname, toString_int64_inj hscore⟩

theorem login_inj {error other : Option String} {notices others : List Flash}
    (h : (login error notices).chars = (login other others).chars) :
    error = other ∧ notices = others := by
  have hshown : (error, notices) = (other, others) :=
    layout_inj (credentialsForm_delimited _ _ _ _) h
  exact Prod.mk.inj hshown

theorem register_inj {error other : Option String} {notices others : List Flash}
    (h : (register error notices).chars = (register other others).chars) :
    error = other ∧ notices = others := by
  have hshown : (error, notices) = (other, others) :=
    layout_inj (credentialsForm_delimited _ _ _ _) h
  exact Prod.mk.inj hshown

theorem welcome_inj {notices others : List Flash}
    (h : (welcome notices).chars = (welcome others).chars) : notices = others := by
  simp only [welcome, layout, chars_append, List.append_assoc, List.append_cancel_left_eq] at h
  have hnext : "\n<n".toList ≠ "\n<d".toList := by decide
  exact (flashes_inj (by exact hnext) (by exact hnext) h).1

theorem success_inj {notices others : List Flash}
    (h : (success notices).chars = (success others).chars) : notices = others := by
  simp only [success, layout, chars_append, List.append_assoc, List.append_cancel_left_eq] at h
  have hnext : "\n<h".toList ≠ "\n<d".toList := by decide
  exact (flashes_inj (by exact hnext) (by exact hnext) h).1

theorem todoList_inj {items others : List TodoItem}
    (h : (todoList items).chars = (todoList others).chars) : items = others := by
  simp only [todoList, layout, chars_append, List.append_assoc, List.append_cancel_left_eq] at h
  exact (todoItems_delimited h).1

/-- The title tells the kind of the view, and the content of that kind tells the rest. -/
theorem ofView_inj {view other : View} (h : (ofView view).chars = (ofView other).chars) :
    view = other := by
  have htitle := title_inj h
  cases view with
  | game board score =>
    cases other with
    | game board' score' =>
      obtain ⟨hboard, hscore⟩ := game_inj h
      rw [hboard, hscore]
    | _ => simp [title] at htitle
  | profile name score =>
    cases other with
    | profile name' score' =>
      obtain ⟨hname, hscore⟩ := profile_inj h
      rw [hname, hscore]
    | _ => simp [title] at htitle
  | login error notices =>
    cases other with
    | login error' notices' =>
      obtain ⟨herror, hnotices⟩ := login_inj h
      rw [herror, hnotices]
    | _ => simp [title] at htitle
  | register error notices =>
    cases other with
    | register error' notices' =>
      obtain ⟨herror, hnotices⟩ := register_inj h
      rw [herror, hnotices]
    | _ => simp [title] at htitle
  | welcome notices =>
    cases other with
    | welcome notices' => rw [welcome_inj h]
    | _ => simp [title] at htitle
  | success notices =>
    cases other with
    | success notices' => rw [success_inj h]
    | _ => simp [title] at htitle
  | todoList items =>
    cases other with
    | todoList items' => rw [todoList_inj h]
    | _ => simp [title] at htitle
  | newTodo =>
    cases other with
    | newTodo => rfl
    | _ => simp [title] at htitle

/-- Every view has a page, and no other view has the same one. -/
theorem page_tells_view (view other : View) :
    ∃ page, renderer.render view = .ok page ∧
      (renderer.render other = .ok page ↔ other = view) := by
  refine ⟨_, rfl, ?_, ?_⟩
  · intro h
    exact ofView_inj (String.ofList_injective (Except.ok.inj h))
  · intro h
    rw [h]
    rfl

end Html

end Gatehouse
