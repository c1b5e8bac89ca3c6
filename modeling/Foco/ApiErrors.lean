import Foco.RustText

/-!
`ApiError`, what the operations of the app return when they refuse a request.
-/
namespace Foco
open Foco.RustText

/-- The constructors of `ApiError`. -/
inductive ApiErrorKind where
  | badRequest | internal | conflict
  deriving DecidableEq

/-- `ApiError`. -/
structure ApiError where
  kind : ApiErrorKind
  message : Text
  deriving DecidableEq

namespace ApiError

def badRequest (message : Text) : ApiError := ⟨.badRequest, message⟩

def internal (message : Text) : ApiError := ⟨.internal, message⟩

def conflict (message : Text) : ApiError := ⟨.conflict, message⟩

end ApiError

end Foco
