import GraphProfile.Files.Access
import GraphProfile.Profile.Decode
import GraphProfile.Profile.Encode

set_option autoImplicit false

namespace GraphProfile.Profile

variable {m : Type → Type} [Monad m] [FileAccess m]

/-- Directories that are missing above the file are made. -/
def save (p : Profile) (path : String) : m (Except Error Unit) := do
  return (← writeWithParents path p.document).mapError SystemError.error

/-- A directory in the place of the file is no document. -/
def load (path : String) : m (Except Error Profile) := do
  match ← FileAccess.read path with
  | .error .isADirectory => return .error (.serialization SystemError.isADirectory.message)
  | .error e => return .error e.error
  | .ok bytes => return (Profile.read bytes).mapError Unreadable.error

end GraphProfile.Profile
