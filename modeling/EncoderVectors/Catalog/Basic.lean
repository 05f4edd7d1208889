import EncoderVectors.Catalog.Entry
import EncoderVectors.Catalog.Family

/-!
# Catalogs

A catalog is an ordered list of groups, each the entries of one family. The order of the groups and
of the entries in them is the order of emission. A family may own several groups.
-/

set_option autoImplicit false

namespace EncoderVectors

/-- The number of words that entries are emitted as, with `count` instances of each. -/
def Entry.words (count : Nat) : List Entry → Nat
  | [] => 0
  | e :: rest => e.forms * count + Entry.words count rest

/-- Entries of one family. -/
structure Group where
  /-- The family of the entries. -/
  family : Family
  /-- The entries in order of emission. -/
  entries : List Entry
  deriving DecidableEq, Repr

namespace Group

/-- The number of words the group is emitted as, with `count` instances of each entry. -/
def words (g : Group) (count : Nat) : Nat :=
  Entry.words count g.entries

end Group

/-- An ordered list of groups. -/
structure Catalog where
  /-- The groups in order of emission. -/
  groups : List Group
  deriving DecidableEq, Repr

namespace Catalog

/-- No groups at all. -/
def empty : Catalog := ⟨[]⟩

/-- The catalog with one more group at its end. -/
def push (c : Catalog) (g : Group) : Catalog := ⟨c.groups ++ [g]⟩

/-- All entries, in order of emission. -/
def entries (c : Catalog) : List Entry :=
  c.groups.flatMap Group.entries

/-- All entries with their families, in order of emission. -/
def members (c : Catalog) : List (Family × Entry) :=
  c.groups.flatMap fun g => g.entries.map fun e => (g.family, e)

/-- The number of entries. -/
def size (c : Catalog) : Nat :=
  c.entries.length

/-- The number of words the catalog is emitted as, with `count` instances of each entry. -/
def words (c : Catalog) (count : Nat) : Nat :=
  Entry.words count c.entries

/-- The groups of the given families; no families at all stand for every family. -/
def restrict (c : Catalog) (families : List Family) : Catalog :=
  if families.isEmpty then c
  else ⟨c.groups.filter fun g => families.contains g.family⟩

end Catalog

end EncoderVectors
