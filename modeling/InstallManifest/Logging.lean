import InstallManifest.Failure

/-!
# Logging

Where log lines go is set up once in the life of a program; a second time is refused.
-/

namespace InstallManifest

structure Logging where
  isSetUp : Bool := false
  deriving DecidableEq

namespace Logging

/-- Sets up logging. -/
def setUp (l : Logging) : Except Failure Logging :=
  if l.isSetUp then .error .loggingTwice else .ok { l with isSetUp := true }

/-- Sets up logging unless that has been done. -/
def ensure (l : Logging) : Logging :=
  match l.setUp with
  | .ok new => new
  | .error _ => l

end Logging

end InstallManifest
