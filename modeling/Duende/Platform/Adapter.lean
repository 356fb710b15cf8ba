import Duende.System

/-!
# The adapter contract of the platform crate
-/

namespace Duende.Platforms

/-- Handle to a running daemon. -/
structure DaemonHandle where
  platform : Platform
  id : Text
  pid : Option UInt32
  deriving DecidableEq

/-- Handle to an attached tracer. -/
structure TracerHandle where
  platform : Platform
  id : Text
  deriving DecidableEq

/-- The platform errors that `signal`, `status` and `attach_tracer` return. -/
inductive PlatformError where
  | signal (msg : String)
  | status (msg : String)
  | tracer (msg : String)
  deriving DecidableEq, Repr

end Duende.Platforms
