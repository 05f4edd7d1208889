import EncoderVectors.Catalog.Rv64g

/-!
# Selecting families

A run may be restricted to some families of the built-in catalog, given by name.
-/

set_option autoImplicit false

namespace EncoderVectors.Catalog

/-- The families of those names, or the first name that is none. -/
def familiesNamed (names : List String) : Except String (List Family) :=
  names.mapM fun name => (Family.ofName? name).elim (Except.error name) Except.ok

/-- The built-in catalog restricted to the named families, or the first name that is no family. No
names at all stand for every family. -/
def select (names : List String) : Except String Catalog :=
  (familiesNamed names).map rv64g.restrict

end EncoderVectors.Catalog
