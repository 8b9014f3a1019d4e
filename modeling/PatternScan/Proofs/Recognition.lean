import PatternScan.Proofs.Reload

/-!
# Which texts are read

The lines of a text are its pieces between line feeds, except for an empty last one. The states that
are read from them are those whose records they are (`Table.readStates_eq_ok_iff`), and if there are
no such states, reading ends at the first record that is to blame (`Table.readStates_eq_error`). So
a text is read as a table just if its records are those of the states
(`Table.ofText_reads_records`).
-/

namespace PatternScan

section Lines

theorem dropReturn_cons {c : Char} {line : List Char} (h : c = '\r' → line ≠ []) :
    dropReturn (c :: line) = c :: dropReturn line := by
  unfold dropReturn
  rcases line with _ | ⟨c', line⟩
  · have hc : c ≠ '\r' := fun hc => h hc rfl
    simp [hc]
  · rw [List.getLast?_cons_cons, List.dropLast_cons_cons]
    split <;> rfl

theorem exists_piecesBetween (text : List Char) :
    ∃ pieces last, piecesBetween '\n' text = pieces ++ [last] :=
  ⟨_, _, (List.dropLast_append_getLast (piecesBetween_ne_nil text)).symm⟩

theorem textPieces_eq {text : List Char} {pieces : List (List Char)} {last : List Char}
    (h : piecesBetween '\n' text = pieces ++ [last]) :
    textPieces text = pieces.map dropReturn ++ [last] := by
  simp [textPieces, h]

theorem textPieces_feed (rest : List Char) : textPieces ('\n' :: rest) = [] :: textPieces rest := by
  obtain ⟨pieces, last, hpieces⟩ := exists_piecesBetween rest
  have hcons : piecesBetween '\n' ('\n' :: rest) = ([] :: pieces) ++ [last] := by
    simp [piecesBetween, hpieces]
  rw [textPieces_eq hcons, textPieces_eq hpieces]
  rfl

/-- A text whose first of several pieces is empty begins with the mark. -/
theorem head?_of_piecesBetween {mark : Char} {piece : List Char} {more : List (List Char)} :
    ∀ {text : List Char}, piecesBetween mark text = [] :: piece :: more → text.head? = some mark
  | [], h => by simp [piecesBetween] at h
  | c :: rest, h => by
    unfold piecesBetween at h
    split at h
    · next hc => rw [hc, List.head?_cons]
    · split at h <;> simp at h

theorem textPieces_cons {c : Char} {rest piece : List Char} {more : List (List Char)}
    (hc : c ≠ '\n') (hreturn : c = '\r' → rest.head? ≠ some '\n')
    (h : textPieces rest = piece :: more) :
    textPieces (c :: rest) = (c :: piece) :: more := by
  obtain ⟨pieces, last, hpieces⟩ := exists_piecesBetween rest
  rw [textPieces_eq hpieces] at h
  -- Only a piece that is not the last one loses a carriage return.
  rcases pieces with _ | ⟨first, pieces⟩
  · have hcons : piecesBetween '\n' (c :: rest) = [] ++ [c :: last] := by
      simp [piecesBetween, hc, hpieces]
    rw [textPieces_eq hcons]
    simp_all
  · have hcons : piecesBetween '\n' (c :: rest) = ((c :: first) :: pieces) ++ [last] := by
      simp [piecesBetween, hc, hpieces]
    have hfirst : c = '\r' → first ≠ [] := by
      rintro hc' rfl
      obtain ⟨piece', more', hmore⟩ := List.exists_cons_of_ne_nil (l := pieces ++ [last]) (by simp)
      rw [List.cons_append, hmore] at hpieces
      exact hreturn hc' (head?_of_piecesBetween hpieces)
    rw [textPieces_eq hcons, List.map_cons, dropReturn_cons hfirst]
    simp_all

theorem textPieces_return_feed (rest : List Char) :
    textPieces ('\r' :: '\n' :: rest) = [] :: textPieces rest := by
  obtain ⟨pieces, last, hpieces⟩ := exists_piecesBetween rest
  have hcons : piecesBetween '\n' ('\r' :: '\n' :: rest) = (['\r'] :: pieces) ++ [last] := by
    simp [piecesBetween, hpieces]
  rw [textPieces_eq hcons, textPieces_eq hpieces]
  rfl

/-- After the last line feed there is no line, but an empty piece. -/
theorem textPieces_eq_linesOf (text : List Char) :
    textPieces text = linesOf text ∨ textPieces text = linesOf text ++ [[]] := by
  have hhead : ∀ {c : Char} {rest : List Char}, (∀ rest', c = '\r' → rest = '\n' :: rest' → False) →
      c = '\r' → rest.head? ≠ some '\n' := fun h hc hhead =>
    have ⟨rest', hrest⟩ := List.head?_eq_some_iff.mp hhead
    h rest' hc hrest
  fun_induction linesOf text with
  | case1 => exact .inr rfl
  | case2 rest ih =>
    rw [textPieces_feed]
    exact ih.imp (congrArg _) (congrArg _)
  | case3 rest ih =>
    rw [textPieces_return_feed]
    exact ih.imp (congrArg _) (congrArg _)
  | case4 c rest hc hreturn hrest ih =>
    have hpieces : textPieces rest = [[]] := by
      rcases ih with h | h
      · exact absurd (h.trans hrest) (by simp [textPieces])
      · exact h.trans (by rw [hrest]; rfl)
    exact .inl (textPieces_cons hc (hhead hreturn) hpieces)
  | case5 c rest hc hreturn line more hrest ih =>
    rw [hrest] at ih
    exact ih.imp (textPieces_cons hc (hhead hreturn)) (textPieces_cons hc (hhead hreturn))

end Lines

namespace Table

theorem recordsFrom_blank (number : Nat) (lines : List (List Char)) :
    recordsFrom number ([] :: lines) = recordsFrom (number + 1) lines := by
  simp [recordsFrom, List.zipIdx_cons]

theorem recordsFrom_cons {line : List Char} (h : line ≠ []) (number : Nat)
    (lines : List (List Char)) :
    recordsFrom number (line :: lines) = (line, number) :: recordsFrom (number + 1) lines := by
  simp [recordsFrom, List.zipIdx_cons, h]

theorem numberedRecords_eq (text : List Char) :
    numberedRecords text = recordsFrom 1 (linesOf text) := by
  rcases textPieces_eq_linesOf text with h | h
  · rw [numberedRecords, h]
  · rw [numberedRecords, h]
    simp [recordsFrom, List.zipIdx_append]

section Records

variable {limit id : Nat} {records : List (List Char × Nat)} {states : List State}

theorem areRecords_nil : AreRecords limit id [] states ↔ states = [] := by
  simp [AreRecords, List.forall₂_nil_left_iff]

theorem areRecords_cons {record : List Char} {line : Nat} :
    AreRecords limit id ((record, line) :: records) states ↔
      ∃ s more, states = s :: more ∧ IsRecord limit record id s ∧
        AreRecords limit (id + 1) records more := by
  rcases states with _ | ⟨s, more⟩
  · simp [AreRecords]
  · simp [AreRecords, List.zipIdx_cons]

/-- Which limit the successors are below does not matter, as long as they are. -/
theorem AreRecords.relimit {limit' : Nat} : ∀ {records : List (List Char × Nat)} {id : Nat}
    {states : List State}, AreRecords limit id records states →
      (∀ s ∈ states, s.first.Within limit' ∧ s.second.Within limit') →
        AreRecords limit' id records states
  | [], _, _, h, _ => areRecords_nil.mpr (areRecords_nil.mp h)
  | _ :: _, _, _, h, hwithin => by
    obtain ⟨s, more, rfl, ⟨fields, hline, hs⟩, hmore⟩ := areRecords_cons.mp h
    obtain ⟨hs', hmore'⟩ := List.forall_mem_cons.mp hwithin
    have hfields : fields.Describe limit' _ s :=
      { hs with first_within := hs'.1, second_within := hs'.2 }
    exact areRecords_cons.mpr ⟨s, more, rfl, ⟨fields, hline, hfields⟩, hmore.relimit hmore'⟩

theorem AreRecords.within : ∀ {records : List (List Char × Nat)} {id : Nat} {states : List State},
    AreRecords limit id records states → ∀ s ∈ states, s.first.Within limit ∧ s.second.Within limit
  | [], _, _, h => by
    obtain rfl := areRecords_nil.mp h
    simp
  | _ :: _, _, _, h => by
    obtain ⟨s, more, rfl, ⟨fields, -, hs⟩, hmore⟩ := areRecords_cons.mp h
    exact List.forall_mem_cons.mpr ⟨⟨hs.first_within, hs.second_within⟩, hmore.within⟩

theorem AreRecords.length_le : ∀ {records : List (List Char × Nat)} {id : Nat}
    {states : List State}, AreRecords limit id records states → id ≤ Next.idLimit →
      id + states.length ≤ Next.idLimit
  | [], _, _, h, hid => by
    obtain rfl := areRecords_nil.mp h
    exact hid
  | _ :: _, _, _, h, _ => by
    obtain ⟨s, more, rfl, ⟨fields, -, hs⟩, hmore⟩ := areRecords_cons.mp h
    have := hmore.length_le hs.number_lt
    rw [List.length_cons]
    omega

theorem IsFirstFault.cons {record : List Char} {line : Nat} {s : State} {e : TableError}
    (hrecord : IsRecord Next.idLimit record id s) (h : IsFirstFault (id + 1) records e) :
    IsFirstFault id ((record, line) :: records) e := by
  have hcons : ∀ {before : List (List Char × Nat)},
      (∃ states, AreRecords Next.idLimit (id + 1) before states) →
        ∃ states, AreRecords Next.idLimit id ((record, line) :: before) states :=
    fun ⟨states, hstates⟩ => ⟨s :: states, areRecords_cons.mpr ⟨s, states, rfl, hrecord, hstates⟩⟩
  cases h with
  | malformed hrecords hbefore hfault =>
    exact .malformed (congrArg _ hrecords) (hcons hbefore) hfault
  | @outOfOrder before after record' line' found s' hrecords hbefore hfault hfound =>
    have hlength : id + 1 + before.length = id + ((record, line) :: before).length := by
      rw [List.length_cons]
      omega
    rw [hlength] at hfound ⊢
    exact .outOfOrder (congrArg _ hrecords) (hcons hbefore) hfault hfound

end Records

theorem readStates_eq_ok_iff : ∀ {lines : List (List Char)} {number expected : Nat}
    {states : List State}, readStates number expected lines = .ok states ↔
      AreRecords Next.idLimit expected (recordsFrom number lines) states
  | [], number, expected, states => by
    rw [readStates, show recordsFrom number [] = [] from rfl, areRecords_nil, Except.ok.injEq,
      eq_comm]
  | [] :: lines, number, expected, states => by
    have ih : readStates (number + 1) expected lines = .ok states ↔
        AreRecords Next.idLimit expected (recordsFrom (number + 1) lines) states :=
      readStates_eq_ok_iff
    rwa [recordsFrom_blank]
  | (c :: line) :: lines, number, expected, states => by
    have ih : ∀ more, readStates (number + 1) (expected + 1) lines = .ok more ↔
        AreRecords Next.idLimit (expected + 1) (recordsFrom (number + 1) lines) more :=
      fun _ => readStates_eq_ok_iff
    rw [readStates_cons (List.cons_ne_nil c line), recordsFrom_cons (List.cons_ne_nil c line),
      areRecords_cons]
    simp only [← ih, ← State.ofRecord_eq_ok_iff]
    rcases State.ofRecord (c :: line) with fault | ⟨found, s⟩
    · simp
    · by_cases hfound : found = expected
      · rcases readStates (number + 1) (expected + 1) lines with e | more
        · simp [hfound, Except.map]
        · simp [hfound, Except.map, eq_comm]
      · simp [hfound]

theorem readStates_eq_error {e : TableError} : ∀ {lines : List (List Char)} {number expected : Nat},
    readStates number expected lines = .error e →
      IsFirstFault expected (recordsFrom number lines) e
  | [], _, _, h => nomatch h
  | [] :: lines, number, expected, h => by
    rw [recordsFrom_blank]
    exact readStates_eq_error h
  | (c :: line) :: lines, number, expected, h => by
    have hempty : ∃ states, AreRecords Next.idLimit expected [] states :=
      ⟨[], areRecords_nil.mpr rfl⟩
    rw [readStates_cons (List.cons_ne_nil c line)] at h
    rw [recordsFrom_cons (List.cons_ne_nil c line)]
    rcases hrecord : State.ofRecord (c :: line) with fault | ⟨found, s⟩
    · rw [hrecord] at h
      obtain rfl := Except.error.inj h
      refine .malformed (List.nil_append _).symm hempty ?_
      rintro ⟨found, s, hs⟩
      exact nomatch hrecord.symm.trans (State.ofRecord_eq_ok_iff.mpr hs)
    · have hs := State.ofRecord_eq_ok_iff.mp hrecord
      simp only [hrecord] at h
      split at h
      · next hfound =>
        rw [hfound] at hs
        rcases hmore : readStates (number + 1) (expected + 1) lines with e' | more
        · rw [hmore] at h
          obtain rfl := Except.error.inj h
          exact (readStates_eq_error hmore).cons hs
        · rw [hmore] at h
          exact nomatch h
      · next hfound =>
        obtain rfl := Except.error.inj h
        exact .outOfOrder (List.nil_append _).symm hempty hs hfound

theorem exists_ofStates_iff {states : List State} :
    (∃ t, ofStates states.toArray = .ok t ∧ t.states = states.toArray) ↔
      states ≠ [] ∧ (∀ s ∈ states, s.first.Within states.length ∧ s.second.Within states.length) ∧
        ∀ s ∈ states, s.kind ≠ .branch → s.first = s.second := by
  have hconsumes : ∀ {kind : StateKind}, kind.consumes = true ↔ kind ≠ .branch := by
    rintro (c | _ | _) <;> simp [StateKind.consumes]
  constructor
  · rintro ⟨⟨_, hnonempty, hclosed, huniform⟩, -, rfl⟩
    refine ⟨fun hnil => hnonempty (by rw [hnil]; rfl), fun s hs => ?_, fun s hs hkind => ?_⟩
    · exact hclosed s (List.mem_toArray.mpr hs)
    · exact huniform s (List.mem_toArray.mpr hs) (hconsumes.mpr hkind)
  · rintro ⟨hne, hwithin, huniform⟩
    let t : Table := ⟨states.toArray, by simpa using hne,
      fun s hs => hwithin s (List.mem_toArray.mp hs),
      fun s hs hkind => huniform s (List.mem_toArray.mp hs) (hconsumes.mp hkind)⟩
    exact ⟨t, ofStates_states t, rfl⟩

theorem stateFault?_eq_some {size id : Nat} {s : State} {e : TableError}
    (h : stateFault? size id s = some e) :
    (∃ target, e = .danglingSuccessor id target) ∨ e = .unequalSuccessors id := by
  unfold stateFault? at h
  split at h
  · exact .inl ⟨s.first, (Option.some.inj h).symm⟩
  split at h
  · exact .inl ⟨s.second, (Option.some.inj h).symm⟩
  split at h
  · exact .inr (Option.some.inj h).symm
  · cases h

theorem ofStates_eq_error {states : Array State} {e : TableError} (h : ofStates states = .error e) :
    e = .empty ∨ (∃ id target, e = .danglingSuccessor id target) ∨
      ∃ id, e = .unequalSuccessors id := by
  rcases fault_of_ofStates h with ⟨-, hempty⟩ | hfault
  · exact .inl hempty
  · obtain ⟨⟨s, id⟩, -, hs⟩ := Array.exists_of_findSome?_eq_some hfault
    rcases stateFault?_eq_some hs with hdangling | hunequal
    · exact .inr (.inl ⟨id, hdangling⟩)
    · exact .inr (.inr ⟨id, hunequal⟩)

/-- The successors are in the table or not; either way the limit of the numbers holds. -/
theorem areRecords_length_iff {records : List (List Char × Nat)} {states : List State} :
    AreRecords states.length 0 records states ↔ AreRecords Next.idLimit 0 records states ∧
      ∀ s ∈ states, s.first.Within states.length ∧ s.second.Within states.length := by
  constructor
  · intro h
    have hlength : states.length ≤ Next.idLimit := by
      have := h.length_le (Nat.zero_le _)
      omega
    refine ⟨h.relimit fun s hs => ?_, h.within⟩
    exact ⟨(h.within s hs).1.mono hlength, (h.within s hs).2.mono hlength⟩
  · rintro ⟨h, hwithin⟩
    exact h.relimit hwithin

theorem exists_ofText_iff {text : List Char} {states : List State} :
    (∃ t, ofText text = .ok t ∧ t.states = states.toArray) ↔
      readStates 1 0 (linesOf text) = .ok states ∧
        ∃ t, ofStates states.toArray = .ok t ∧ t.states = states.toArray := by
  constructor
  · rintro ⟨t, ht, hstates⟩
    obtain ⟨more, hread, ht⟩ := ofText_eq_ok_iff.mp ht
    have hmore : t.states = more.toArray := states_of_ofStates ht
    obtain rfl : more = states := List.toArray_inj (hmore.symm.trans hstates)
    exact ⟨hread, t, ht, hstates⟩
  · rintro ⟨hread, t, ht, hstates⟩
    exact ⟨t, ofText_eq_ok_iff.mpr ⟨states, hread, ht⟩, hstates⟩

/-- A text is read just if its records are those of the states of a table, and otherwise the error
is about the first record at fault; errors about the states come last. -/
theorem ofText_reads_records (text : List Char) :
    (∀ states : List State, (∃ t, ofText text = .ok t ∧ t.states = states.toArray) ↔
      states ≠ [] ∧ AreRecords states.length 0 (numberedRecords text) states ∧
        ∀ s ∈ states, s.kind ≠ .branch → s.first = s.second) ∧
    ((¬ ∃ states, AreRecords Next.idLimit 0 (numberedRecords text) states) →
      ∃ e, ofText text = .error e ∧ IsFirstFault 0 (numberedRecords text) e) ∧
    ∀ e, ofText text = .error e →
      ((e = .empty ∨ (∃ id target, e = .danglingSuccessor id target) ∨
          ∃ id, e = .unequalSuccessors id) ↔
        ∃ states, AreRecords Next.idLimit 0 (numberedRecords text) states) := by
  have hok : ∀ states, readStates 1 0 (linesOf text) = .ok states ↔
      AreRecords Next.idLimit 0 (numberedRecords text) states := by
    intro states
    rw [numberedRecords_eq]
    exact readStates_eq_ok_iff
  have herror : ∀ e, readStates 1 0 (linesOf text) = .error e →
      ofText text = .error e ∧ IsFirstFault 0 (numberedRecords text) e := by
    intro e he
    refine ⟨by rw [ofText, he]; rfl, ?_⟩
    rw [numberedRecords_eq]
    exact readStates_eq_error he
  refine ⟨fun states => ?_, fun hnone => ?_, fun e he => ?_⟩
  · rw [exists_ofText_iff, exists_ofStates_iff, hok, areRecords_length_iff]
    constructor
    · rintro ⟨hrecords, hne, hwithin, huniform⟩
      exact ⟨hne, ⟨hrecords, hwithin⟩, huniform⟩
    · rintro ⟨hne, ⟨hrecords, hwithin⟩, huniform⟩
      exact ⟨hrecords, hne, hwithin, huniform⟩
  · rcases hread : readStates 1 0 (linesOf text) with e | states
    · exact ⟨e, herror e hread⟩
    · exact absurd ⟨states, (hok states).mp hread⟩ hnone
  · rcases hread : readStates 1 0 (linesOf text) with e' | states
    · obtain ⟨he', hfault⟩ := herror e' hread
      obtain rfl := Except.error.inj (he.symm.trans he')
      constructor
      · rintro (rfl | ⟨id, target, rfl⟩ | ⟨id, rfl⟩) <;> cases hfault
      · rintro ⟨states, hstates⟩
        rw [(hok states).mpr hstates] at hread
        cases hread
    · rw [ofText, hread] at he
      exact iff_of_true (ofStates_eq_error he) ⟨states, (hok states).mp hread⟩

/-- Signs, zeros, blank lines and a comma as a symbol are read; after state zero comes one and not
two; that there is no state seven is found last. -/
theorem ofText_reads_records_signs :
    (∃ t, ofText "+0,BR,01,-1\r\n\n1,,,-1,-01".toList = .ok t ∧
      t.states = [State.branch (.state 1) .final, .consuming (.literal ',') .final].toArray) ∧
    IsFirstFault 0 (numberedRecords "0,WC,1,1\n\r\n2,WC,-1,-1\n".toList) (.outOfOrder 3 1 2) ∧
    ofText "0,x,7,7".toList = .error (.danglingSuccessor 0 (.state 7)) ∧
      ∃ states, AreRecords Next.idLimit 0 (numberedRecords "0,x,7,7".toList) states := by
  refine ⟨?_, ?_, rfl, ?_⟩
  · refine ((ofText_reads_records _).1 _).mpr ⟨by simp, areRecords_length_iff.mpr ⟨?_, ?_⟩, ?_⟩
    · rw [numberedRecords_eq]
      exact readStates_eq_ok_iff.mp rfl
    · decide
    · decide
  · have hnone : ¬ ∃ states, AreRecords Next.idLimit 0
        (numberedRecords "0,WC,1,1\n\r\n2,WC,-1,-1\n".toList) states := by
      rintro ⟨states, h⟩
      rw [numberedRecords_eq] at h
      exact nomatch readStates_eq_ok_iff.mpr h
    obtain ⟨e, he, hfault⟩ := (ofText_reads_records _).2.1 hnone
    obtain rfl : .outOfOrder 3 1 2 = e := Except.error.inj he
    exact hfault
  · exact ((ofText_reads_records _).2.2 (.danglingSuccessor 0 (.state 7)) rfl).mp
      (.inr (.inl ⟨0, .state 7, rfl⟩))

end Table

end PatternScan
