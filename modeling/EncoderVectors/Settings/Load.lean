import EncoderVectors.Host.Basic
import EncoderVectors.Settings.Reader

/-!
# Loading settings

Settings are kept in a file of JSON text.
-/

set_option autoImplicit false

namespace EncoderVectors

/-- The settings in a file. -/
def Settings.load (p : Path) : HostM Settings := do
  Host.liftFault .settings (Settings.ofJson (← Host.readText p))

end EncoderVectors
