import PatternScan.Table.Basic
import PatternScan.Text.Lines
import PatternScan.Text.Utf8

/-!
# The written form of a table

One line a state, in the order of their numbers: the number, the symbol and the two successors,
with commas between. The symbol is the character itself, so that a comma may stand there too: the
number ends at the first comma, and the successors begin at the last two.
-/

namespace PatternScan

namespace StateKind

/-- The symbol of a kind of state in a written table. -/
def symbol : StateKind → List Char
  | .literal c => [c]
  | .wildcard => ['W', 'C']
  | .branch => ['B', 'R']

def ofSymbol? (symbol : List Char) : Option StateKind :=
  if symbol = ['W', 'C'] then some .wildcard
  else if symbol = ['B', 'R'] then some .branch
  else
    match symbol with
    | [c] => some (.literal c)
    | _ => none

theorem ofSymbol?_eq_some_iff {symbol : List Char} {kind : StateKind} :
    ofSymbol? symbol = some kind ↔ symbol = kind.symbol := by
  constructor
  · intro h
    unfold ofSymbol? at h
    split at h
    · next hsymbol =>
      rw [hsymbol, ← Option.some.inj h]
      rfl
    split at h
    · next hsymbol =>
      rw [hsymbol, ← Option.some.inj h]
      rfl
    split at h
    · rw [← Option.some.inj h]
      rfl
    · exact nomatch h
  · rintro rfl
    cases kind with
    | literal c =>
      unfold ofSymbol? symbol
      rw [if_neg (by simp), if_neg (by simp)]
    | wildcard => rfl
    | branch => rfl

end StateKind

namespace State

/-- The line of state number `id`, with its end. -/
def record (id : Nat) (s : State) : List Char :=
  Decimal.digits id ++ ',' :: s.kind.symbol ++ ',' :: Decimal.signedDigits s.first.encode ++
    ',' :: Decimal.signedDigits s.second.encode ++ ['\n']

end State

/-- The four fields of a line. -/
structure RecordFields where
  id : List Char
  symbol : List Char
  first : List Char
  second : List Char

namespace RecordFields

/-- Cuts a line at its first and its last two commas. -/
def ofLine? (line : List Char) : Option RecordFields := do
  let (id, rest) ← cutAtFirst? ',' line
  let (rest, second) ← cutAtLast? ',' rest
  let (symbol, first) ← cutAtLast? ',' rest
  return ⟨id, symbol, first, second⟩

/-- The fields as they stand in a line. -/
def line (fields : RecordFields) : List Char :=
  fields.id ++ ',' :: (fields.symbol ++ ',' :: fields.first) ++ ',' :: fields.second

/-- The symbol is the one field that a comma may stand in. -/
theorem ofLine?_eq_some_iff {line : List Char} {fields : RecordFields} :
    ofLine? line = some fields ↔ line = fields.line ∧
      ',' ∉ fields.id ∧ ',' ∉ fields.first ∧ ',' ∉ fields.second := by
  obtain ⟨id, symbol, first, second⟩ := fields
  simp only [ofLine?, Option.bind_eq_bind, Option.bind_eq_some_iff, Prod.exists,
    cutAtFirst?_eq_some_iff, cutAtLast?_eq_some_iff, pure, Option.some.injEq, mk.injEq]
  constructor
  · rintro ⟨_, _, ⟨rfl, hid⟩, _, _, ⟨rfl, hsecond⟩, _, _, ⟨rfl, hfirst⟩, rfl, rfl, rfl, rfl⟩
    exact ⟨by simp [RecordFields.line], hid, hfirst, hsecond⟩
  · rintro ⟨rfl, hid, hfirst, hsecond⟩
    exact ⟨id, _, ⟨by simp [RecordFields.line], hid⟩, _, second, ⟨rfl, hsecond⟩, symbol, first,
      ⟨rfl, hfirst⟩, rfl, rfl, rfl, rfl⟩

/-- The number of a state, which is a word of 32 bits. -/
def stateId (field : List Char) : Except RecordFault Nat :=
  match Decimal.unsigned? field with
  | some n => if n < Next.idLimit then .ok n else .error (.stateId field)
  | none => .error (.stateId field)

/-- The kind of a state. -/
def stateKind (field : List Char) : Except RecordFault StateKind :=
  match StateKind.ofSymbol? field with
  | some kind => .ok kind
  | none => .error (.symbol field)

/-- A successor. -/
def successor (field : List Char) : Except RecordFault Next :=
  match (Decimal.signed? field).bind Next.decode? with
  | some next => .ok next
  | none => .error (.successor field)

/-- The state that the fields describe and its number; the first field at fault is reported. -/
def read (fields : RecordFields) : Except RecordFault (Nat × State) := do
  let id ← stateId fields.id
  let kind ← stateKind fields.symbol
  let first ← successor fields.first
  let second ← successor fields.second
  return (id, ⟨kind, first, second⟩)

theorem read_eq_ok_iff {fields : RecordFields} {id : Nat} {s : State} :
    fields.read = .ok (id, s) ↔ stateId fields.id = .ok id ∧
      stateKind fields.symbol = .ok s.kind ∧ successor fields.first = .ok s.first ∧
      successor fields.second = .ok s.second := by
  obtain ⟨kind, first, second⟩ := s
  unfold read
  rcases stateId fields.id with fault | id'
  · simp [bind, Except.bind]
  rcases stateKind fields.symbol with fault | kind'
  · simp [bind, Except.bind]
  rcases successor fields.first with fault | first'
  · simp [bind, Except.bind]
  rcases successor fields.second with fault | second'
  · simp [bind, Except.bind]
  · simp [bind, Except.bind, pure, Except.pure]

end RecordFields

/-- Reads a line that is not blank. -/
def State.ofRecord (line : List Char) : Except RecordFault (Nat × State) :=
  match RecordFields.ofLine? line with
  | some fields => fields.read
  | none => .error .fieldCount

namespace Table

/-- The written form of a table. -/
def text (t : Table) : List Char :=
  t.states.toList.zipIdx.flatMap fun (s, id) => s.record id

/-- The states of some lines, of which the first has the given line number and has to describe the
given state. Blank lines count as lines and are passed over. -/
def readStates (number expected : Nat) : List (List Char) → Except TableError (List State)
  | [] => .ok []
  | [] :: lines => readStates (number + 1) expected lines
  | line :: lines =>
    match State.ofRecord line with
    | .error fault => .error (.malformedRecord number fault)
    | .ok (id, s) =>
      if id = expected then (readStates (number + 1) (expected + 1) lines).map (s :: ·)
      else .error (.outOfOrder number expected id)

/-- The table that a text is a written form of. -/
def ofText (text : List Char) : Except TableError Table := do
  let states ← readStates 1 0 (linesOf text)
  ofStates states.toArray

section Text

variable {text : List Char}

theorem ofText_eq_ok_iff {t : Table} : ofText text = .ok t ↔
    ∃ states, readStates 1 0 (linesOf text) = .ok states ∧ ofStates states.toArray = .ok t := by
  unfold ofText
  rcases readStates 1 0 (linesOf text) with e | states
  · simp [bind, Except.bind]
  · simp [bind, Except.bind]

theorem ofText_eq_error {e : TableError} (h : readStates 1 0 (linesOf text) = .error e) :
    ofText text = .error e := by
  rw [ofText, h]
  rfl

end Text

/-- The table whose written form some bytes are. -/
def ofBytes (bytes : List UInt8) : Except TableError Table :=
  match Utf8.decode bytes with
  | .ok text => ofText text
  | .error _ => .error (.unreadable "stream did not contain valid UTF-8".toList)

end Table

end PatternScan
