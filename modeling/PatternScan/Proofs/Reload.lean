import Mathlib.Order.Bounds.Basic
import PatternScan.Proofs.Literals
import PatternScan.Proofs.Records

/-!
# Reading back a written table

A record is a line of its own whose fields are found again whatever character its symbol is, as long
as this is no line feed; so the records of some states are read one after the other
(`Table.readStates_records_append`), and a written table is read back as it was. A literal line feed
cuts its record in two, and the first part has too few fields.
-/

namespace PatternScan

namespace State

variable {id : Nat} {s : State}

/-- The state and its successors can be numbered. -/
def Fits (id : Nat) (s : State) : Prop :=
  id < Next.idLimit ∧ s.first.Within Next.idLimit ∧ s.second.Within Next.idLimit

def fields (id : Nat) (s : State) : RecordFields :=
  ⟨Decimal.digits id, s.kind.symbol, Decimal.signedDigits s.first.encode,
    Decimal.signedDigits s.second.encode⟩

theorem not_mem_signedDigits {c : Char} (h : c.isDigit = false) (hc : c ≠ '-') (n : Int) :
    c ∉ Decimal.signedDigits n := by
  intro hmem
  rcases Decimal.isDigit_of_mem_signedDigits hmem with hminus | hdigit
  · exact hc hminus
  · rw [hdigit] at h
    exact Bool.false_ne_true h.symm

theorem record_eq (id : Nat) (s : State) : s.record id = (s.fields id).line ++ ['\n'] := by
  simp [record, fields, RecordFields.line]

theorem ofRecord_fields_line (h : s.Fits id) : ofRecord (s.fields id).line = .ok (id, s) := by
  obtain ⟨hid, hfirst, hsecond⟩ := h
  have hsigned := fun n => Decimal.signed?_eq_some_iff.mp (Decimal.signed?_signedDigits n)
  refine ofRecord_eq_ok_iff.mpr ⟨s.fields id, rfl, ?_⟩
  exact ⟨Decimal.unsigned?_eq_some_iff.mp (Decimal.unsigned?_digits id), hid, rfl,
    hsigned _, hfirst, hsigned _, hsecond⟩

theorem feed_not_mem_fields_line (h : s.kind ≠ .literal '\n') (id : Nat) :
    '\n' ∉ (s.fields id).line := by
  have hsymbol : '\n' ∉ s.kind.symbol := by
    rcases hkind : s.kind with c | _ | _
    · rw [hkind] at h
      simpa [StateKind.symbol, eq_comm] using h
    · decide
    · decide
  simp [fields, RecordFields.line, hsymbol, Decimal.not_mem_digits, not_mem_signedDigits]

theorem getLast?_fields_line (id : Nat) (s : State) :
    (s.fields id).line.getLast? ≠ some '\r' := by
  intro h
  exact not_mem_signedDigits (by decide) (by decide) s.second.encode
    (RecordFields.mem_second_of_getLast?_line h (by decide))

/-- What is wrong with the part of a record before a literal line feed. -/
theorem ofRecord_cut (id : Nat) : ofRecord (Decimal.digits id ++ [',']) = .error .fieldCount := by
  have hcut : RecordFields.ofLine? (Decimal.digits id ++ [',']) = none := by
    rw [RecordFields.ofLine?, cutAtFirst?_append _ (Decimal.not_mem_digits (by decide) id)]
    rfl
  rw [ofRecord, hcut]

theorem mem_of_ofRecord {line : List Char} (h : ofRecord line = .ok (id, s)) :
    id < Next.idLimit ∧ ∀ c, s.kind = .literal c → c ∈ line := by
  obtain ⟨fields, rfl, hs⟩ := ofRecord_eq_ok_iff.mp h
  refine ⟨hs.number_lt, fun c hc => ?_⟩
  have hfield : fields.symbol = [c] := by
    rw [hs.symbol, hc]
    rfl
  simp [RecordFields.line, hfield]

end State

namespace Table

/-- The records of some states, of which the first has the given number. -/
def records (id : Nat) (states : List State) : List Char :=
  (states.zipIdx id).flatMap fun (s, id) => s.record id

theorem text_eq_records (t : Table) : t.text = records 0 t.states.toList := rfl

theorem records_cons (id : Nat) (s : State) (states : List State) :
    records id (s :: states) = (s.fields id).line ++ '\n' :: records (id + 1) states := by
  simp [records, State.record_eq]

theorem records_append (states states' : List State) : ∀ id : Nat,
    records id (states ++ states') = records id states ++ records (id + states.length) states' := by
  intro id
  simp [records, List.zipIdx_append]

theorem readStates_cons {line : List Char} (h : line ≠ []) (number expected : Nat)
    (lines : List (List Char)) : readStates number expected (line :: lines) =
      match State.ofRecord line with
      | .error fault => .error (.malformedRecord number fault)
      | .ok (id, s) =>
        if id = expected then (readStates (number + 1) (expected + 1) lines).map (s :: ·)
        else .error (.outOfOrder number expected id) := by
  rcases line with _ | ⟨c, line⟩
  · exact absurd rfl h
  · rfl

/-- The records of states that can be numbered, none of which reads a line feed, are read one after
the other, whatever comes after them. -/
theorem readStates_records_append (rest : List Char) : ∀ {states : List State} (id number : Nat),
    (∀ s ∈ states, s.kind ≠ .literal '\n') →
    (∀ s ∈ states, s.first.Within Next.idLimit ∧ s.second.Within Next.idLimit) →
    id + states.length ≤ Next.idLimit →
      readStates number id (linesOf (records id states ++ rest)) =
        (readStates (number + states.length) (id + states.length) (linesOf rest)).map (states ++ ·)
  | [], id, number, _, _, _ => by
    rw [show records id [] ++ rest = rest from rfl, List.length_nil, Nat.add_zero, Nat.add_zero]
    rcases readStates number id (linesOf rest) with e | states <;> rfl
  | s :: states, id, number, hfeed, hwithin, hlength => by
    rw [List.length_cons] at hlength
    obtain ⟨hs, hstates⟩ := List.forall_mem_cons.mp hfeed
    obtain ⟨hs', hstates'⟩ := List.forall_mem_cons.mp hwithin
    have hline : (s.fields id).line ≠ [] := by simp [RecordFields.line]
    have ih := readStates_records_append rest (id + 1) (number + 1) hstates hstates' (by omega)
    rw [records_cons, List.append_assoc, List.cons_append,
      linesOf_append_feed _ (State.feed_not_mem_fields_line hs id)
        (State.getLast?_fields_line id s),
      readStates_cons hline, State.ofRecord_fields_line ⟨by omega, hs'⟩]
    simp only [↓reduceIte, ih, List.length_cons]
    rw [show number + 1 + states.length = number + (states.length + 1) by omega,
      show id + 1 + states.length = id + (states.length + 1) by omega]
    rcases readStates (number + (states.length + 1)) (id + (states.length + 1)) (linesOf rest) with
      e | more <;> rfl

theorem readStates_records {states : List State} (hfeed : ∀ s ∈ states, s.kind ≠ .literal '\n')
    (hwithin : ∀ s ∈ states, s.first.Within Next.idLimit ∧ s.second.Within Next.idLimit)
    (hlength : states.length ≤ Next.idLimit) :
    readStates 1 0 (linesOf (records 0 states)) = .ok states := by
  have h := readStates_records_append [] 0 1 hfeed hwithin (by omega)
  rw [List.append_nil] at h
  rw [h, linesOf, readStates]
  exact congrArg Except.ok (List.append_nil states)

/-- The first record whose literal is a line feed is where reading ends. -/
theorem readStates_records_feed {before : List State} {s : State} (after : List State)
    (hfeed : ∀ s ∈ before, s.kind ≠ .literal '\n') (hs : s.kind = .literal '\n')
    (hwithin : ∀ s ∈ before, s.first.Within Next.idLimit ∧ s.second.Within Next.idLimit)
    (hlength : before.length ≤ Next.idLimit) :
    readStates 1 0 (linesOf (records 0 (before ++ s :: after))) =
      .error (.malformedRecord (before.length + 1) .fieldCount) := by
  have hline : (s.fields before.length).line = (Decimal.digits before.length ++ [',']) ++ '\n' ::
      (',' :: Decimal.signedDigits s.first.encode ++
        ',' :: Decimal.signedDigits s.second.encode) := by
    simp [State.fields, RecordFields.line, hs, StateKind.symbol]
  have hnofeed : '\n' ∉ Decimal.digits before.length ++ [','] := by
    simp [Decimal.not_mem_digits]
  rw [records_append, readStates_records_append _ _ _ hfeed hwithin (by omega), Nat.zero_add,
    records_cons, hline, List.append_assoc, List.cons_append,
    linesOf_append_feed _ hnofeed (by simp), readStates_cons (by simp), State.ofRecord_cut,
    Nat.add_comm 1]
  rfl

theorem of_readStates : ∀ {lines : List (List Char)} {number expected : Nat} {states : List State},
    readStates number expected lines = .ok states → expected ≤ Next.idLimit →
      expected + states.length ≤ Next.idLimit ∧
        ∀ s ∈ states, ∀ c, s.kind = .literal c → ∃ line ∈ lines, c ∈ line
  | [], _, _, _, h, hexpected => by
    obtain rfl := Except.ok.inj h
    exact ⟨hexpected, by simp⟩
  | [] :: lines, number, expected, states, h, hexpected => by
    have hrest : readStates (number + 1) expected lines = .ok states := h
    obtain ⟨hlength, hstates⟩ := of_readStates hrest hexpected
    exact ⟨hlength, by simpa using hstates⟩
  | (c :: line) :: lines, number, expected, states, h, hexpected => by
    rw [readStates_cons (List.cons_ne_nil c line)] at h
    split at h
    · exact nomatch h
    · next id s hrecord =>
      obtain ⟨hid, hs⟩ := State.mem_of_ofRecord hrecord
      split at h
      · next heq =>
        rcases hmore : readStates (number + 1) (expected + 1) lines with e | more
        · rw [hmore] at h
          exact nomatch h
        · rw [hmore] at h
          obtain rfl := Except.ok.inj h
          obtain ⟨hlength, hmore⟩ := of_readStates hmore (by omega)
          refine ⟨by rw [List.length_cons]; omega, ?_⟩
          intro s' hs' c' hc'
          rcases List.mem_cons.mp hs' with rfl | hs'
          · exact ⟨_, List.mem_cons_self, hs c' hc'⟩
          · obtain ⟨line', hline', hmem⟩ := hmore s' hs' c' hc'
            exact ⟨line', List.mem_cons_of_mem _ hline', hmem⟩
      · exact nomatch h

section Text

variable {t : Table}

theorem within_idLimit (hsize : t.size ≤ Next.idLimit) {s : State} (hs : s ∈ t.states) :
    s.first.Within Next.idLimit ∧ s.second.Within Next.idLimit :=
  ⟨(t.closed s hs).1.mono hsize, (t.closed s hs).2.mono hsize⟩

theorem ofText_text_of_no_feed (hsize : t.size ≤ Next.idLimit)
    (h : ∀ s ∈ t.states, s.kind ≠ .literal '\n') : ofText t.text = .ok t := by
  have hread : readStates 1 0 (linesOf t.text) = .ok t.states.toList :=
    readStates_records (fun s hs => h s (Array.mem_toList_iff.mp hs))
      (fun s hs => within_idLimit hsize (Array.mem_toList_iff.mp hs)) (by simpa [size] using hsize)
  exact ofText_eq_ok_iff.mpr ⟨_, hread, ofStates_states t⟩

theorem ofText_text_of_feed (hsize : t.size ≤ Next.idLimit) {id : Nat}
    (h : IsLeast {id | ∃ s, t.get? id = some s ∧ s.kind = .literal '\n'} id) :
    ofText t.text = .error (.malformedRecord (id + 1) .fieldCount) := by
  obtain ⟨⟨s, hget, hs⟩, hleast⟩ := h
  obtain ⟨hid, rfl⟩ := Array.getElem?_eq_some_iff.mp hget
  have hid' : id < t.states.toList.length := by simpa using hid
  have hstates : t.states.toList =
      t.states.toList.take id ++ t.states[id] :: t.states.toList.drop (id + 1) := by
    conv_lhs => rw [← List.take_append_drop id t.states.toList, List.drop_eq_getElem_cons hid']
    simp
  have hlength : (t.states.toList.take id).length = id := List.length_take_of_le hid'.le
  have hbefore : ∀ s ∈ t.states.toList.take id, s.kind ≠ .literal '\n' := by
    intro s hs hfeed
    obtain ⟨j, hj, rfl⟩ := List.mem_take_iff_getElem.mp hs
    have hget : t.get? j = some t.states.toList[j] := by
      rw [get?, ← Array.getElem?_toList]
      exact List.getElem?_eq_getElem _
    have := hleast ⟨_, hget, hfeed⟩
    omega
  have hread : readStates 1 0 (linesOf t.text) =
      .error (.malformedRecord (id + 1) .fieldCount) := by
    rw [text_eq_records, hstates]
    have := readStates_records_feed (t.states.toList.drop (id + 1)) hbefore hs (fun s hs =>
      within_idLimit hsize (Array.mem_toList_iff.mp (List.mem_of_mem_take hs))) (by
        simp [size] at hsize; omega)
    rwa [hlength] at this
  exact ofText_eq_error hread

/-- A table that has been read has no more states than can be numbered, and none reads a line
feed. -/
theorem of_ofText {text : List Char} (h : ofText text = .ok t) :
    t.size ≤ Next.idLimit ∧ ∀ s ∈ t.states, s.kind ≠ .literal '\n' := by
  obtain ⟨states, hread, ht⟩ := ofText_eq_ok_iff.mp h
  have hstates : t.states = states.toArray := states_of_ofStates ht
  obtain ⟨hlength, hliterals⟩ := of_readStates hread (Nat.zero_le _)
  refine ⟨by simpa [size, hstates] using hlength, fun s hs hfeed => ?_⟩
  rw [hstates, List.mem_toArray] at hs
  obtain ⟨line, hline, hmem⟩ := hliterals s hs '\n' hfeed
  exact not_mem_of_mem_linesOf hline hmem

/-- A written table is read back as it was unless a state reads a line feed, and then the record of
the first such state is at fault; the tables of patterns and those that have been read are read
back. -/
theorem ofText_text (t : Table) :
    (t.size ≤ Next.idLimit →
      (ofText t.text = .ok t ↔ ∀ s ∈ t.states, s.kind ≠ .literal '\n') ∧
      (∀ id, IsLeast {id | ∃ s, t.get? id = some s ∧ s.kind = .literal '\n'} id →
        ofText t.text = .error (.malformedRecord (id + 1) .fieldCount)) ∧
      ∀ source, ofPattern source = .ok t → ofText t.text = .ok t) ∧
    ∀ text, ofText text = .ok t → ofText t.text = .ok t := by
  refine ⟨fun hsize => ⟨⟨?_, ofText_text_of_no_feed hsize⟩, fun _ => ofText_text_of_feed hsize, ?_⟩,
    fun text h => ?_⟩
  · exact fun h => (of_ofText h).2
  · intro source h
    exact ofText_text_of_no_feed hsize fun s hs hfeed =>
      not_isLineBreak_of_ofPattern h hs hfeed (.inl rfl)
  · obtain ⟨hsize, hfeed⟩ := of_ofText h
    exact ofText_text_of_no_feed hsize hfeed

/-- Of a comma, a carriage return and a line feed as literals only the last is at fault. -/
theorem ofText_text_delimiters :
    (∃ t, ofStates #[.consuming (.literal ',') (.state 1), .consuming (.literal '\r') (.state 2),
        .consuming (.literal '\n') .final] = .ok t ∧ t.size ≤ Next.idLimit ∧
      ofText t.text = .error (.malformedRecord 3 .fieldCount)) ∧
    (∃ t, ofPattern [',', '|', '-'] = .ok t ∧ t.size ≤ Next.idLimit ∧ ofText t.text = .ok t) ∧
    ∃ t, ofText "0,\r,-1,-1".toList = .ok t ∧ ofText t.text = .ok t := by
  obtain ⟨t, ht, hsize, hfeed⟩ : ∃ t, ofStates #[.consuming (.literal ',') (.state 1),
      .consuming (.literal '\r') (.state 2), .consuming (.literal '\n') .final] = .ok t ∧
      t.size ≤ Next.idLimit ∧
      IsLeast {id | ∃ s, t.get? id = some s ∧ s.kind = .literal '\n'} 2 := by
    refine ⟨⟨_, by decide, by decide, by decide⟩, rfl, by decide, ⟨_, rfl, rfl⟩, ?_⟩
    rintro (_ | _ | id) ⟨s, hs, hkind⟩
    · obtain rfl := Option.some.inj hs
      exact absurd hkind (by decide)
    · obtain rfl := Option.some.inj hs
      exact absurd hkind (by decide)
    · exact Nat.le_add_left 2 id
  obtain ⟨t', ht', hsize'⟩ : ∃ t, ofPattern [',', '|', '-'] = .ok t ∧ t.size ≤ Next.idLimit :=
    ⟨_, rfl, by decide +kernel⟩
  obtain ⟨t'', ht''⟩ : ∃ t, ofText "0,\r,-1,-1".toList = .ok t := ⟨_, rfl⟩
  exact ⟨⟨t, ht, hsize, ((ofText_text t).1 hsize).2.1 2 hfeed⟩,
    ⟨t', ht', hsize', ((ofText_text t').1 hsize').2.2 _ ht'⟩, t'', ht'', (ofText_text t'').2 _ ht''⟩

end Text

end Table

end PatternScan
