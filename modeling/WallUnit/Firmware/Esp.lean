import Mathlib.Data.List.Basic

/-!
Owns the vocabulary every firmware module shares: the `esp_err_t` codes the
modelled functions return, and C strings as the characters before the
terminating NUL, with the bounded copy the firmware uses for identifiers.
-/

namespace WallUnit.Firmware

/-- The `esp_err_t` values returned by the modelled functions. -/
inductive EspErr where
  | ok
  | fail
  | noMem
  | invalidArg
  | invalidState
  | invalidSize
  | notFound
  | timeout
deriving DecidableEq, Repr

/-- A C string: the characters before the terminating NUL. -/
abbrev CString := List Char

/-- `strncpy(dst, src, sizeof(dst) - 1)` followed by the explicit terminator. -/
def strncpyTerminated (size : Nat) (src : CString) : CString := src.take (size - 1)

theorem strncpyTerminated_of_fits {size : Nat} {src : CString} (fits : src.length ≤ size - 1) :
    strncpyTerminated size src = src :=
  List.take_of_length_le fits

end WallUnit.Firmware
