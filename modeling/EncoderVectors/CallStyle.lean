/-!
# Call style

How encoder calls are spelled: a text in front of every call, and a scope in front of every
enumerated argument. Both may be any text.
-/

set_option autoImplicit false

namespace EncoderVectors

/-- The spelling of encoder calls. -/
structure CallStyle where
  /-- The text in front of every call. -/
  callPrefix : String := ""
  /-- The scope of rounding modes and orderings. -/
  enumScope : String := "Assembler::"
  deriving DecidableEq, Repr

namespace CallStyle

/-- The statement that binds a label at the current position. -/
def bind (style : CallStyle) (label : String) : String :=
  style.callPrefix ++ "bind(" ++ label ++ ");"

end CallStyle

end EncoderVectors
