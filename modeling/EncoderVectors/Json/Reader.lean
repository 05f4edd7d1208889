import EncoderVectors.Decimal.Text
import EncoderVectors.Json.Number
import EncoderVectors.Json.Text
import EncoderVectors.Text.Quoted

/-!
# Reading JSON text

A reader takes characters off the front of a text and yields a value, or stops at the first fault. The
text is read once from left to right, so the fault that comes first is the one that is reported. A
value that nobody asked for is passed over; it may be nested to any depth.
-/

set_option autoImplicit false

namespace EncoderVectors.Json

/-- What stands in a text where something else was expected. -/
inductive Found where
  /-- The null. -/
  | null
  /-- A truth value. -/
  | boolean (value : Bool)
  /-- A number. -/
  | number (value : Number)
  /-- A string. -/
  | text (value : String)
  /-- An array. -/
  | sequence
  /-- An object. -/
  | map
  deriving DecidableEq, Repr

/-- The wording of what was found. -/
def Found.label : Found → String
  | .null => "null"
  | .boolean true => "boolean `true`"
  | .boolean false => "boolean `false`"
  | .number (.integer z) => "integer `" ++ Text.signedDecimal z ++ "`"
  | .number (.float bits) => "floating point `" ++ Decimal.text bits ++ "`"
  | .text value => "string " ++ Text.quoted value
  | .sequence => "sequence"
  | .map => "map"

/-- Why a text is refused. -/
inductive Fault where
  /-- The text is not JSON, or ends too early. -/
  | malformed
  /-- A value is of the wrong kind. -/
  | kind (found : Found) (expected : String)
  /-- An integer is out of range. -/
  | range (value : Int) (expected : String)
  /-- A field is given twice. -/
  | duplicate (key : String)
  /-- A name is none of those that may stand there. -/
  | variant (name : String) (expected : List String)
  deriving DecidableEq, Repr

/-- The wording of a fault. -/
def Fault.message : Fault → String
  | .malformed => "malformed text"
  | .kind found expected => "invalid type: " ++ found.label ++ ", expected " ++ expected
  | .range value expected =>
      "invalid value: integer `" ++ Text.signedDecimal value ++ "`, expected " ++ expected
  | .duplicate key => "duplicate field `" ++ key ++ "`"
  | .variant name expected =>
      "unknown variant `" ++ name ++ "`, expected " ++
        String.intercalate " or " (expected.map fun e => "`" ++ e ++ "`")

/-- Takes characters off a text. -/
abbrev Reader := StateT (List Char) (Except Fault)

section

variable {α β σ : Type}

/-- A reader from a scanner that fails on malformed text. -/
def scanned (scan : List Char → Option (α × List Char)) : Reader α := fun cs =>
  match scan cs with
  | some result => .ok result
  | none => .error .malformed

/-- Stops at malformed text. -/
def malformed : Reader α :=
  throw .malformed

/-- The blanks of the format. -/
def isSpace (c : Char) : Bool :=
  c = ' ' || c = '\t' || c = '\n' || c = '\r'

/-- The next character after any blanks, which are gone; the character itself stays. -/
def look : Reader (Option Char) := do
  modify fun cs => cs.dropWhile isSpace
  return (← get).head?

/-- Takes the next character, whatever it is. -/
def advance : Reader Unit :=
  modify List.tail

/-- Takes the given characters. -/
def literal (chars : List Char) : Reader Unit := do
  let cs ← get
  if chars.isPrefixOf cs then set (cs.drop chars.length) else malformed

/-- Takes the given character after any blanks. -/
def punctuation (c : Char) : Reader Unit := do
  if (← look) = some c then advance else malformed

/-- Runs `step` until it yields a result, at most `steps` times. -/
def iterateAtMost (step : σ → Reader (σ ⊕ β)) : Nat → σ → Reader β
  | 0, _ => malformed
  | steps + 1, s => do
      match ← step s with
      | .inl next => iterateAtMost step steps next
      | .inr result => return result

/-- Runs `step` until it yields a result. A step that goes on must take a character, so one step more
than there are characters is enough. -/
def iterate (step : σ → Reader (σ ⊕ β)) (start : σ) : Reader β := do
  iterateAtMost step ((← get).length + 1) start

/-- Reads a string, its opening quote included. -/
def textLiteral : Reader String := do
  punctuation '"'
  return String.ofList (← scanned scanString)

/-- Reads a number. -/
def numberLiteral : Reader Number := do
  match value? (← scanned scanNumber) with
  | some n => return n
  | none => malformed

/-- Refuses the next value, which should have been what `expected` says. -/
def refuse (expected : String) : Reader α := do
  match ← look with
  | some 'n' => do
      literal ['n', 'u', 'l', 'l']
      throw (.kind .null expected)
  | some 't' => do
      literal ['t', 'r', 'u', 'e']
      throw (.kind (.boolean true) expected)
  | some 'f' => do
      literal ['f', 'a', 'l', 's', 'e']
      throw (.kind (.boolean false) expected)
  | some '"' => do
      let value ← textLiteral
      throw (.kind (.text value) expected)
  | some '[' => throw (.kind .sequence expected)
  | some '\x7b' => throw (.kind .map expected)
  | some c =>
      if c = '-' || c.isDigit then do
        let value ← numberLiteral
        throw (.kind (.number value) expected)
      else malformed
  | none => malformed

/-! ## Passing over a value -/

/-- An open bracket. -/
inductive Bracket where
  /-- Of an array. -/
  | array
  /-- Of an object. -/
  | object
  deriving DecidableEq, Repr

/-- The closing bracket. -/
def Bracket.closing : Bracket → Char
  | .array => ']'
  | .object => '\x7d'

/-- Passes over the key of a member and its colon. -/
def skipKey : Reader Unit := do
  punctuation '"'
  scanned fun cs => (skipString cs).map fun rest => ((), rest)
  punctuation ':'

/-- How far a value has been passed over: the brackets that are open, the innermost first, and
whether a value has just ended. -/
structure Skipping where
  /-- The open brackets. -/
  brackets : List Bracket
  /-- A value has just ended. -/
  ended : Bool
  deriving DecidableEq, Repr

/-- Goes into an array or an object, or right over it if it is empty. -/
def skipInto (outer : List Bracket) (bracket : Bracket) : Reader Skipping := do
  advance
  if (← look) = some bracket.closing then
    advance
    return ⟨outer, true⟩
  else
    if bracket = .object then skipKey
    return ⟨bracket :: outer, false⟩

/-- Passes over the start of a value. -/
def skipStart (outer : List Bracket) : Reader Skipping := do
  match ← look with
  | some 'n' => literal ['n', 'u', 'l', 'l']; return ⟨outer, true⟩
  | some 't' => literal ['t', 'r', 'u', 'e']; return ⟨outer, true⟩
  | some 'f' => literal ['f', 'a', 'l', 's', 'e']; return ⟨outer, true⟩
  | some '"' => do
      advance
      scanned fun cs => (skipString cs).map fun rest => ((), rest)
      return ⟨outer, true⟩
  | some '[' => skipInto outer .array
  | some '\x7b' => skipInto outer .object
  | _ => do
      let _ ← scanned scanNumber
      return ⟨outer, true⟩

/-- One step over a value. -/
def skipStep (s : Skipping) : Reader (Skipping ⊕ Unit) := do
  match s.ended, s.brackets with
  | false, outer => return .inl (← skipStart outer)
  | true, [] => return .inr ()
  | true, bracket :: outer =>
      match ← look with
      | some c =>
          if c = ',' then
            advance
            if bracket = .object then skipKey
            return .inl ⟨bracket :: outer, false⟩
          else if c = bracket.closing then
            advance
            return .inl ⟨outer, true⟩
          else malformed
      | none => malformed

/-- Passes over a value. -/
def skipValue : Reader Unit :=
  iterate skipStep ⟨[], false⟩

/-! ## Reading values -/

/-- Reads a truth value. -/
def boolean : Reader Bool := do
  match ← look with
  | some 't' => literal ['t', 'r', 'u', 'e']; return true
  | some 'f' => literal ['f', 'a', 'l', 's', 'e']; return false
  | _ => refuse "a boolean"

/-- Reads a string; `expected` says what for. -/
def text (expected : String) : Reader String := do
  if (← look) = some '"' then textLiteral else refuse expected

/-- Reads an unsigned integer of 64 bits; `expected` says what for. -/
def unsigned (expected : String) : Reader Nat := do
  match ← look with
  | some c =>
      if c = '-' || c.isDigit then
        match ← numberLiteral with
        | .integer z => if z < 0 then throw (.range z expected) else return z.toNat
        | .float bits => throw (.kind (.number (.float bits)) expected)
      else refuse expected
  | none => malformed

/-- Reads a value, or null for none. -/
def optional (read : Reader α) : Reader (Option α) := do
  if (← look) = some 'n' then
    literal ['n', 'u', 'l', 'l']
    return none
  else
    return some (← read)

/-- Whether another element of an array follows; its comma is taken. -/
def anotherElement (first : Bool) : Reader Bool := do
  match ← look with
  | some c =>
      if c = ']' then return false
      else if first then return true
      else if c = ',' then
        advance
        if (← look) = some ']' then malformed else return true
      else malformed
  | none => malformed

/-- Whether another member of an object follows; its comma is taken. -/
def anotherMember (first : Bool) : Reader Bool := do
  match ← look with
  | some c =>
      if c = '\x7d' then return false
      else if first then return true
      else if c = ',' then
        advance
        if (← look) = some '"' then return true else malformed
      else malformed
  | none => malformed

/-- Reads an array; `expected` says what for. -/
def sequence (expected : String) (read : Reader α) : Reader (List α) := do
  if (← look) = some '[' then
    advance
    iterate (fun (values : List α) => do
      if ← anotherElement values.isEmpty then return .inl ((← read) :: values)
      else
        advance
        return .inr values.reverse) []
  else refuse expected

/-! ## Reading records -/

/-- A field of a record: its key, and a reader of its value that says how the record changes. -/
structure RecordField (α : Type) where
  /-- The key. -/
  key : String
  /-- Reads the value. -/
  read : Reader (α → α)

/-- Reads the fields of a record written as an array: in order, as many as there are. -/
def positionalFields : List (RecordField α) → Bool → α → Reader α
  | [], _, record => return record
  | field :: rest, first, record => do
      if ← anotherElement first then
        let update ← field.read
        positionalFields rest false (update record)
      else return record

/-- Reads one member of a record written as an object. Members that are no field are passed over; a
field may stand there only once. -/
def namedField (fields : List (RecordField α)) (seen : List String) (record : α) :
    Reader (List String × α) := do
  let key ← textLiteral
  match fields.find? fun f => f.key == key with
  | some field =>
      if seen.contains key then throw (.duplicate key)
      else
        punctuation ':'
        let update ← field.read
        return (key :: seen, update record)
  | none =>
      punctuation ':'
      skipValue
      return (seen, record)

/-- Reads the members of a record written as an object. -/
def namedFields (fields : List (RecordField α)) (record : α) : Reader α :=
  iterate (fun (first, seen, record) => do
    if ← anotherMember first then
      let (seen, record) ← namedField fields seen record
      return .inl (false, seen, record)
    else
      advance
      return .inr record) (true, [], record)

/-- Reads a record, written as an object or as an array. Fields that are missing keep the value they
have in `record`. -/
def fields (expected : String) (fields : List (RecordField α)) (record : α) : Reader α := do
  match ← look with
  | some '[' => do
      advance
      let record ← positionalFields fields true record
      punctuation ']'
      return record
  | some '\x7b' => do
      advance
      namedFields fields record
  | _ => refuse expected

/-- Reads a whole text: nothing but blanks may follow. -/
def readAll (read : Reader α) (text : String) : Except Fault α :=
  match read.run text.toList with
  | .error fault => .error fault
  | .ok (value, rest) => if rest.all isSpace then .ok value else .error .malformed

end

end EncoderVectors.Json
