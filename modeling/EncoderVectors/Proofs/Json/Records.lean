import Mathlib.Data.List.Nodup
import EncoderVectors.Proofs.Json.Skipping
import EncoderVectors.Proofs.Json.Values

/-!
# Records

A record is read from an object: a member whose key is that of a field changes the field, any other
member is passed over, and a field that has no member keeps what it had. `Schema` collects what this
rests on: a law for the reader of each field, and the laws of getting a field from a record and
putting one into it.

Reading follows the members one by one (`Schema.reads_fields`). Since a field is put once at most, what
is got from the record in the end does not depend on the order of the members (`Schema.exists_record?`).
-/

set_option autoImplicit false

namespace EncoderVectors.Json

variable {α ι : Type}

/-- The fields of a record. -/
structure Schema (α ι : Type) where
  /-- The fields in order. -/
  order : List ι
  /-- The key of a field. -/
  key : ι → String
  /-- What a field can hold. -/
  Meaning : ι → Type
  /-- What a value stands for. -/
  decode : (i : ι) → Value → Option (Meaning i)
  /-- Reads the value of a field. -/
  read : (i : ι) → Reader (Meaning i)
  /-- What a field of a record holds. -/
  get : (i : ι) → α → Meaning i
  /-- The record with a field changed. -/
  put : (i : ι) → Meaning i → α → α
  /-- Every field is in the order. -/
  complete : ∀ i, i ∈ order
  /-- No two fields have one key. -/
  distinct : (order.map key).Nodup
  /-- What is read is what the value stands for. -/
  reads : ∀ i, Reads (read i) (decode i)
  /-- What was put is there. -/
  get_put_self : ∀ i m a, get i (put i m a) = m
  /-- Putting one field leaves the others alone. -/
  get_put_of_ne : ∀ {i j} m a, i ≠ j → get i (put j m a) = get i a

namespace Schema

/-- A field with its reader. -/
def field (S : Schema α ι) (i : ι) : RecordField α :=
  ⟨S.key i, do
    let meaning ← S.read i
    return S.put i meaning⟩

/-- The fields in order, with their readers. -/
def fields (S : Schema α ι) : List (RecordField α) :=
  S.order.map S.field

/-- The field of a key. -/
def named? (S : Schema α ι) (key : String) : Option ι :=
  S.order.find? fun i => S.key i == key

/-- How far reading an object is after a member: whether it is still the first one's turn, the keys
that were there, and the record so far. -/
def next (S : Schema α ι) : Bool × List String × α → Option String × Value →
    Option (Bool × List String × α)
  | (_, seen, a), (some key, v) =>
      match S.named? key with
      | some i =>
          if seen.contains key then none
          else (S.decode i v).map fun m => (false, key :: seen, S.put i m a)
      | none => some (false, seen, a)
  | _, (none, _) => none

/-- The record of an object. -/
def record? (S : Schema α ι) (start : α) : Value → Option α
  | .object members => (members.foldlM S.next (true, [], start)).map fun s => s.2.2
  | _ => none

/-- The members of an object that a record can be read from: their keys are texts, no field is there
twice, and every value stands for something that its field can hold. -/
structure Documented (S : Schema α ι) (members : List (Option String × Value)) : Prop where
  /-- The keys are texts. -/
  named : ∀ m ∈ members, m.1.isSome
  /-- No field is there twice. -/
  once : ∀ i, (members.map Prod.fst).count (some (S.key i)) ≤ 1
  /-- Values are of the kind of their fields. -/
  typed : ∀ i v, members.lookup (some (S.key i)) = some v → (S.decode i v).isSome

variable {S : Schema α ι}

theorem key_injective (S : Schema α ι) {i j : ι} (same : S.key i = S.key j) : i = j :=
  List.inj_on_of_nodup_map S.distinct (S.complete i) (S.complete j) same

theorem named?_eq_some_iff {k : String} {i : ι} : S.named? k = some i ↔ S.key i = k := by
  constructor
  · intro found
    simpa using List.find?_some found
  · rintro rfl
    cases found : S.named? (S.key i) with
    | none =>
        have missed := List.find?_eq_none.mp found i (S.complete i)
        simp at missed
    | some j =>
        have same : S.key j = S.key i := by simpa using List.find?_some found
        rw [S.key_injective same]

theorem find?_fields (S : Schema α ι) (k : String) :
    S.fields.find? (fun f => f.key == k) = (S.named? k).map S.field := by
  rw [fields, List.find?_map]
  rfl

/-! ## Reading the members -/

theorem takes_field {i : ι} {m : S.Meaning i} {v : Value} {cs cs₁ rest : List Char}
    (decoded : S.decode i v = some m) (blank : Blanks cs cs₁) (spelled : Spells v cs₁ rest)
    (ends : Ends rest) : Takes (S.field i).read cs (S.put i m) rest :=
  (S.reads i decoded blank spelled ends).bind (takes_pure _ _)

theorem takes_namedField {b : Bool} {seen : List String} {a : α} {m : Option String × Value}
    {s : Bool × List String × α} {cs rest : List Char} (member : Member Spells m cs rest)
    (taken : S.next (b, seen, a) m = some s) (ends : Ends rest) :
    Takes (namedField S.fields seen a) cs s.2 rest := by
  cases member with
  | @mk key v _ cs₁ cs₂ cs₃ _ quoted colon blank spelled =>
      cases key with
      | none => cases taken
      | some key =>
          have punctuation := takes_punctuation colon rfl
          rw [next] at taken
          cases known : S.named? key with
          | none =>
              rw [known] at taken
              obtain rfl := Option.some.inj taken
              refine (takes_textLiteral (blanks_refl _) quoted).bind ?_
              rw [find?_fields, known]
              exact punctuation.bind ((takes_skipValue blank spelled ends).bind (takes_pure _ _))
          | some i =>
              rw [known] at taken
              dsimp only at taken
              -- a field that was there before is refused, and nothing is taken
              split at taken
              · cases taken
              · next fresh =>
                  obtain ⟨meaning, decoded, rfl⟩ := Option.map_eq_some_iff.mp taken
                  refine (takes_textLiteral (blanks_refl _) quoted).bind ?_
                  rw [find?_fields, known]
                  dsimp only [Option.map_some]
                  rw [if_neg fresh]
                  have put := takes_field decoded blank spelled ends
                  exact punctuation.bind (put.bind (takes_pure _ _))

theorem next_started {s s' : Bool × List String × α} {m : Option String × Value}
    (taken : S.next s m = some s') : s'.1 = false := by
  obtain ⟨first, seen, a⟩ := s
  obtain ⟨key, v⟩ := m
  cases key with
  | none => cases taken
  | some key =>
      rw [next] at taken
      split at taken
      · split at taken
        · cases taken
        · obtain ⟨meaning, -, rfl⟩ := Option.map_eq_some_iff.mp taken
          rfl
      · obtain rfl := Option.some.inj taken
        rfl

/-- The members of an object are read one after another. -/
theorem takes_namedFields (S : Schema α ι) {start : α} {members : List (Option String × Value)}
    {s : Bool × List String × α} {cs rest : List Char}
    (enclosed : Enclosed (Member Spells) '\x7d' members cs rest)
    (fold : members.foldlM S.next (true, [], start) = some s) :
    Takes (namedFields S.fields start) cs s.2.2 rest := by
  unfold namedFields
  refine Loop.takes (?loop : Loop _ _ _ S.next (fun s => s.2.2) (true, [], start)
    (fun s => s.1 = false)) enclosed fold
  refine ⟨Or.inr rfl, Member.length_lt, ?_, ?_, ?_, next_started⟩
  · rintro m ⟨_, seen, record⟩ cs cs₁ rest taken before member ends
    have read := takes_namedField member taken ends
    obtain rfl := next_started taken
    obtain ⟨more, rfl⟩ := member.exists_quote
    exact (takes_anotherMember_first before).bind (read.bind (takes_pure _ _))
  · rintro m ⟨_, seen, record⟩ ⟨_, seen', record'⟩ cs cs₁ cs₂ rest rfl taken comma before member ends
    have read := takes_namedField member taken ends
    obtain rfl := next_started taken
    obtain ⟨more, rfl⟩ := member.exists_quote
    exact (takes_anotherMember_further comma before).bind (read.bind (takes_pure _ _))
  · rintro ⟨first, seen, record⟩ cs rest _ closing
    refine (takes_anotherMember_ending first closing).bind ?_
    exact (takes_advance '\x7d' rest).bind (takes_pure _ _)

/-- A record is read from every text of an object that it can be read from. -/
theorem reads_fields (S : Schema α ι) (expected : String) (start : α) :
    Reads (Json.fields expected S.fields start) (S.record? start) := by
  intro v a cs cs₁ rest decoded blank spelled ends
  cases spelled with
  | @object members cs₂ _ enclosed =>
      obtain ⟨s, fold, rfl⟩ := Option.map_eq_some_iff.mp decoded
      refine (takes_look blank rfl).bind ?_
      exact (takes_advance '\x7b' cs₂).bind (S.takes_namedFields enclosed fold)
  | _ => cases decoded

/-! ## What is read -/

/-- A key that is there once at most is not among the members after its own. -/
theorem lookup_eq_none_of_count {key : Option String} {v : Value}
    {members : List (Option String × Value)}
    (once : (((key, v) :: members).map Prod.fst).count key ≤ 1) : members.lookup key = none := by
  rw [List.map_cons, List.count_cons_self] at once
  have none : key ∉ members.map Prod.fst := List.count_eq_zero.mp (by omega)
  rw [List.lookup_eq_none_iff]
  intro m member
  simp only [bne_iff_ne, ne_eq]
  rintro rfl
  exact none (List.mem_map_of_mem member)

theorem Documented.tail {m : Option String × Value} {members : List (Option String × Value)}
    (h : S.Documented (m :: members)) : S.Documented members := by
  refine ⟨fun m' member => h.named m' (List.mem_cons_of_mem _ member), ?_, ?_⟩
  · intro i
    have once := h.once i
    rw [List.map_cons, List.count_cons] at once
    omega
  · intro i v found
    obtain ⟨key, w⟩ := m
    apply h.typed i v
    by_cases own : some (S.key i) = key
    · subst own
      rw [lookup_eq_none_of_count (h.once i)] at found
      cases found
    · rw [List.lookup_cons, beq_false_of_ne own]
      exact found

theorem next_of_unknown {key : String} (unknown : ∀ i, S.key i ≠ key) (first : Bool)
    (seen : List String) (a : α) (v : Value) :
    S.next (first, seen, a) (some key, v) = some (false, seen, a) := by
  cases known : S.named? key with
  | none => rw [next, known]
  | some i => exact absurd (named?_eq_some_iff.mp known) (unknown i)

theorem next_of_known {i : ι} {m : S.Meaning i} {v : Value} {seen : List String}
    (unseen : S.key i ∉ seen) (decoded : S.decode i v = some m) (first : Bool) (a : α) :
    S.next (first, seen, a) (some (S.key i), v) =
      some (false, S.key i :: seen, S.put i m a) := by
  rw [next, named?_eq_some_iff.mpr rfl]
  dsimp only
  rw [if_neg (by simpa using unseen), decoded]
  rfl

/-- The step from member to member, for a record that already has some of its fields. -/
theorem exists_foldlM_next {members : List (Option String × Value)} (h : S.Documented members)
    (first : Bool) (seen : List String) (a : α)
    (fresh : ∀ i, S.key i ∈ seen → members.lookup (some (S.key i)) = none) :
    ∃ s, members.foldlM S.next (first, seen, a) = some s ∧
      ∀ i, S.get i s.2.2 =
        ((members.lookup (some (S.key i))).bind (S.decode i)).getD (S.get i a) := by
  -- on the members; `fresh` carries over that no field is put again once it was put
  induction members generalizing first seen a with
  | nil => exact ⟨(first, seen, a), rfl, fun i => rfl⟩
  | cons m members ih =>
      obtain ⟨key, v⟩ := m
      obtain ⟨key, rfl⟩ := Option.isSome_iff_exists.mp (h.named _ List.mem_cons_self)
      -- a member of another key says nothing about a field
      have other : ∀ {i}, S.key i ≠ key →
          ((some key, v) :: members).lookup (some (S.key i)) = members.lookup (some (S.key i)) := by
        intro i differs
        rw [List.lookup_cons, beq_false_of_ne (by simpa using differs)]
      by_cases known : ∃ i, S.key i = key
      · obtain ⟨i₀, rfl⟩ := known
        have own : ((some (S.key i₀), v) :: members).lookup (some (S.key i₀)) = some v := by
          rw [List.lookup_cons, beq_self_eq_true]
        have gone := lookup_eq_none_of_count (h.once i₀)
        have unseen : S.key i₀ ∉ seen := by
          intro old
          rw [fresh i₀ old] at own
          cases own
        obtain ⟨meaning, decoded⟩ := Option.isSome_iff_exists.mp (h.typed i₀ v own)
        obtain ⟨s, fold, got⟩ := ih h.tail false (S.key i₀ :: seen) (S.put i₀ meaning a) <| by
          intro i old
          by_cases same : S.key i = S.key i₀
          · rw [same]
            exact gone
          · rw [← other same]
            exact fresh i ((List.mem_cons.mp old).resolve_left same)
        refine ⟨s, ?_, fun i => ?_⟩
        · rw [List.foldlM_cons, next_of_known unseen decoded]
          exact fold
        · rw [got i]
          by_cases same : S.key i = S.key i₀
          · obtain rfl := S.key_injective same
            rw [gone, own, Option.bind_some, decoded]
            exact S.get_put_self i meaning a
          · rw [other same, S.get_put_of_ne meaning a fun h => same (congrArg S.key h)]
      · have unknown : ∀ i, S.key i ≠ key := fun i same => known ⟨i, same⟩
        obtain ⟨s, fold, got⟩ := ih h.tail false seen a fun i old => by
          rw [← other (unknown i)]
          exact fresh i old
        refine ⟨s, ?_, fun i => ?_⟩
        · rw [List.foldlM_cons, next_of_unknown unknown]
          exact fold
        · rw [other (unknown i)]
          exact got i

/-- A field of the record holds what its member stands for, in whatever order the members are, and what
it held before if there is no such member. -/
theorem exists_record? (S : Schema α ι) {v : Value} (keyed : v.Keyed (S.order.map S.key))
    (typed : ∀ i w, v.member? (S.key i) = some w → (S.decode i w).isSome) (start : α) :
    ∃ a, S.record? start v = some a ∧
      ∀ i, S.get i a = ((v.member? (S.key i)).bind (S.decode i)).getD (S.get i start) := by
  obtain ⟨members, rfl, named, once⟩ := keyed
  have documented : S.Documented members :=
    ⟨named, fun i => once _ (List.mem_map_of_mem (S.complete i)), typed⟩
  obtain ⟨s, fold, got⟩ := exists_foldlM_next documented true [] start fun i old => by cases old
  exact ⟨s.2.2, Option.map_eq_some_iff.mpr ⟨s, fold, rfl⟩, got⟩

end Schema

end EncoderVectors.Json
