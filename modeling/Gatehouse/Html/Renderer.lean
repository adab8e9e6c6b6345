import Gatehouse.Page

set_option autoImplicit false

/-!
# Renderers
-/

namespace Gatehouse

structure RenderError where
  view : String
  reason : String
  deriving DecidableEq, Repr

def RenderError.message (error : RenderError) : String :=
  s!"Failed to render view `{error.view}`: {error.reason}"

structure Renderer where
  render : View → Except RenderError String

def Renderer.failing (reason : String) : Renderer where
  render view := .error ⟨view.name, reason⟩

end Gatehouse
