import Gatehouse.Html.Pages
import Gatehouse.Proofs.Credentials.Calls
import Gatehouse.Proofs.Site.Telling

set_option autoImplicit false

/-!
# What becomes of a form

Whatever a store answers, a form with a name and a password is accepted, refused or met by a
failure. Which of the three it is depends on the values and on the answers alone, and it decides
what the visitor sees and what stays in the session.
-/

namespace Gatehouse

inductive Judgement where
  | accepted (user : User)
  | refused (objection : String)
  | failed (error : CredentialError)

namespace AuthFlow

def news (flow : AuthFlow) (message : String) : List Flash :=
  match flow.feedback with
  | .inline => []
  | .flash => [⟨.success, message⟩]

/-- What a form says that is shown again: the objection stands next to it, or is the last of the
notices. -/
inductive Objects (flow : AuthFlow) (objection : String) (pending : List Flash) :
    Option String → List Flash → Prop
  | inline (feedback : flow.feedback = .inline) :
      Objects flow objection pending (some objection) pending
  | flash (feedback : flow.feedback = .flash) :
      Objects flow objection pending none (pending ++ [⟨.error, objection⟩])

theorem celebrate_eq (flow : AuthFlow) (message : String) (session : Session) :
    flow.celebrate message session =
      { session with flashes := session.flashes ++ flow.news message } := by
  rw [celebrate, news]
  cases flow.feedback with
  | inline => simp
  | flash => rfl

theorem objects_rejection (flow : AuthFlow) (objection : String) (session : Session) :
    flow.Objects objection session.flashes (flow.rejection objection session).1.1
      (flow.rejection objection session).1.2 := by
  rw [rejection]
  cases hfeedback : flow.feedback with
  | inline => exact .inline hfeedback
  | flash => exact .flash hfeedback

theorem session_rejection (flow : AuthFlow) (objection : String) (session : Session) :
    (flow.rejection objection session).2 = { session with flashes := [] } := by
  rw [rejection]
  cases flow.feedback <;> rfl

end AuthFlow

def Markup.TellsAfter (markup : Markup) (pending : List Flash) (objection : String) : Prop :=
  ∃ above between below,
    markup = above ++ Html.flashes pending ++ between ++ .text objection :: below

namespace Html

variable {pending notices : List Flash} {objection : String} {error : Option String}

theorem tellsAfter_append {markup : Markup} (above below : Markup)
    (h : markup.TellsAfter pending objection) :
    Markup.TellsAfter (above ++ markup ++ below) pending objection := by
  obtain ⟨above', between, below', rfl⟩ := h
  exact ⟨above ++ above', between, below' ++ below, by simp⟩

theorem tellsAfter_layout {title : String} {content : Markup} (scripts : Markup)
    (h : content.TellsAfter pending objection) :
    Markup.TellsAfter (layout title content scripts) pending objection := by
  simp only [layout, List.append_assoc]
  rw [← List.append_assoc, ← List.append_assoc, ← List.append_assoc]
  exact tellsAfter_append _ _ h

theorem flashes_concat (notice : Flash) :
    flashes (pending ++ [notice]) = flashes pending ++ flash notice := by
  simp [flashes]

theorem tellsAfter_notices {flow : AuthFlow} (h : flow.Objects objection pending error notices) :
    Markup.TellsAfter (flashes notices ++ [.markup "\n"] ++ errorParagraph error) pending
      objection := by
  cases h with
  | inline =>
    exact ⟨[], [.markup "\n", .markup "\n<p class=\"error\">"], [.markup "</p>\n"],
      by simp [errorParagraph]⟩
  | flash =>
    rw [flashes_concat]
    exact ⟨[], [.markup "\n<div class=\"flash flash-", .text "error", .markup "\">"],
      [.markup "</div>\n", .markup "\n"], by simp [errorParagraph, flash, FlashLevel.name]⟩

theorem tellsAfter_credentialsForm {flow : AuthFlow} (heading action button aside : String)
    (h : flow.Objects objection pending error notices) :
    Markup.TellsAfter (credentialsForm heading action button aside error notices) pending
      objection := by
  have hnotices := tellsAfter_notices h
  rw [credentialsForm, List.append_assoc (Markup.lines _), List.append_assoc (Markup.lines _)]
  exact tellsAfter_append _ _ hnotices

end Html

/-- What there is to a form with a name and a password: how it looks, and where an accepted one
leads, what is told then, and what it makes of the session. -/
structure FormKind where
  view : Option String → List Flash → View
  next : Route
  news : String
  signed : User → Session → Session

namespace FormKind

def OfCredentials (kind : FormKind) : Prop :=
  ∃ title heading action button aside, ∀ error notices,
    Html.ofView (kind.view error notices) =
      Html.layout title (Html.credentialsForm heading action button aside error notices) []

end FormKind

namespace AccountPages

variable {β : Type} (pages : AccountPages β)

def signingIn : FormKind :=
  ⟨.login, pages.flow.afterLogin, signedIn, fun user session => session.authenticate user.id⟩

def signingUp : FormKind :=
  ⟨.register, .login, registered, fun _ session => session⟩

theorem ofCredentials_signingIn : pages.signingIn.OfCredentials :=
  ⟨_, _, _, _, _, fun _ _ => rfl⟩

theorem ofCredentials_signingUp : signingUp.OfCredentials :=
  ⟨_, _, _, _, _, fun _ _ => rfl⟩

structure ShowsAgain (kind : FormKind) (objection : String) (pending : List Flash)
    (response : Response) : Prop where
  shown : ∃ error notices, pages.flow.Objects objection pending error notices ∧
    (Html.ofView (kind.view error notices)).TellsAfter pending objection ∧
    response = (Page.render (kind.view error notices)).answer pages.renderer
  status : pages.renderer.Total → response.status = 200

/-- How a form ends for each judgement. -/
inductive Ends (kind : FormKind) (session : Session) (response : Response)
    (handle : SessionHandle) : Judgement → Prop
  /-- The pending notices stay pending, before the news. -/
  | accepted {user : User} (redirects : response = .seeOther kind.next.path)
      (signed : handle.session = { kind.signed user session with
        flashes := (kind.signed user session).flashes ++ pages.flow.news kind.news }) :
      Ends kind session response handle (.accepted user)
  /-- Of the session only the notices are used up. -/
  | refused {objection : String} (shows : pages.ShowsAgain kind objection session.flashes response)
      (consumed : handle.session = { session with flashes := [] }) :
      Ends kind session response handle (.refused objection)
  | failed {error : CredentialError} (failed : response = .serverError)
      (spared : handle.session = session) (untouched : handle.changed? = none) :
      Ends kind session response handle (.failed error)

variable {pages} {kind : FormKind} {session : Session} {handle : SessionHandle} {user : User}
  {objection : String} {error : CredentialError}

theorem ends_accepted {signed : Session} (hsigned : signed = kind.signed user session) :
    pages.Ends kind session (.seeOther kind.next.path)
      (handle.commit (pages.flow.celebrate kind.news signed)) (.accepted user) := by
  refine .accepted rfl ?_
  rw [SessionHandle.session_commit, AuthFlow.celebrate_eq, hsigned]

theorem ends_refused (hform : kind.OfCredentials) :
    pages.Ends kind session
      ((Page.render (kind.view (pages.flow.rejection objection session).1.1
        (pages.flow.rejection objection session).1.2)).answer pages.renderer)
      (handle.commit (pages.flow.rejection objection session).2) (.refused objection) := by
  obtain ⟨title, heading, action, button, aside, hmarkup⟩ := hform
  have hobjects := pages.flow.objects_rejection objection session
  refine .refused ⟨⟨_, _, hobjects, ?_, rfl⟩, fun htotal => ?_⟩ ?_
  · rw [hmarkup]
    exact Html.tellsAfter_layout _ (Html.tellsAfter_credentialsForm _ _ _ _ hobjects)
  · obtain ⟨html, hrender⟩ := htotal (kind.view (pages.flow.rejection objection session).1.1
      (pages.flow.rejection objection session).1.2)
    rw [Page.answer_of_renders hrender]
    rfl
  · rw [SessionHandle.session_commit, AuthFlow.session_rejection]

theorem ends_failed : pages.Ends kind session .serverError (.new session) (.failed error) :=
  .failed rfl rfl rfl

theorem sameUser_iff_of_ends {response : Response} {judgement : Judgement}
    (h : pages.Ends kind session response handle judgement) :
    session.SameUser handle.session ↔
      ∀ user, judgement = .accepted user → session.SameUser (kind.signed user session) := by
  cases h with
  | accepted redirects signed =>
    rw [signed]
    constructor
    · rintro hsame _ ⟨⟩
      exact hsame
    · intro hall
      exact hall _ rfl
  | refused shows consumed =>
    have hsame : session.SameUser handle.session := consumed ▸ ⟨rfl, rfl⟩
    simp [hsame]
  | failed failed spared untouched =>
    have hsame : session.SameUser handle.session := spared ▸ .refl session
    simp [hsame]

variable (pages) in
/-- The same pages over a store that writes down its calls. -/
def recorded : AccountPages (Recorded β) :=
  ⟨pages.credentials.recorded, pages.renderer, pages.flow⟩

end AccountPages

end Gatehouse
