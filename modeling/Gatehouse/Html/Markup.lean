set_option autoImplicit false

/-!
# Markup

A document is a list of pieces: markup written by this library, and text of anybody's, in which the
five characters that mean something in markup are written as character references.
-/

namespace Gatehouse

def escapeHtmlChar (c : Char) : List Char :=
  if c = '<' then "&#60;".toList
  else if c = '>' then "&#62;".toList
  else if c = '&' then "&#38;".toList
  else if c = '"' then "&#34;".toList
  else if c = '\'' then "&#39;".toList
  else [c]

def escapeHtml (cs : List Char) : List Char :=
  cs.flatMap escapeHtmlChar

inductive Piece where
  | markup (source : String)
  | text (content : String)
  deriving DecidableEq, Repr

def Piece.chars : Piece → List Char
  | .markup source => source.toList
  | .text content => escapeHtml content.toList

abbrev Markup := List Piece

namespace Markup

def chars (pieces : Markup) : List Char :=
  pieces.flatMap Piece.chars

def toDocument (pieces : Markup) : String :=
  String.ofList pieces.chars

def lines (sources : List String) : Markup :=
  [.markup ("\n".intercalate sources)]

@[simp] theorem chars_nil : chars [] = [] := rfl

@[simp] theorem chars_cons (piece : Piece) (pieces : Markup) :
    chars (piece :: pieces) = piece.chars ++ chars pieces := rfl

@[simp] theorem chars_append (left right : Markup) :
    chars (left ++ right) = chars left ++ chars right := by
  simp [chars]

end Markup

end Gatehouse
