import Mathlib.Tactic.Common

set_option autoImplicit false

/-!
# Error numbers

The values the modelled code compares with or returns; `EWOULDBLOCK` is `EAGAIN` on Linux.
-/

namespace SensorHub

/-- `errno`, or a negative return value of the driver. -/
inductive Errno
  | EINTR
  | EAGAIN
  | EINVAL
  | EFAULT
  | ENOTTY
  | ERANGE
  | ERESTARTSYS
  | ECONNABORTED
  | EMFILE
  | ENFILE
  | other (code : ℕ)
  deriving DecidableEq, Repr

end SensorHub
