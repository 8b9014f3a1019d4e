import PatternScan.CommandLine.Phases
import PatternScan.Proofs.Delivery
import PatternScan.Proofs.Faults
import PatternScan.Proofs.Printing

/-!
# How commands exit

A command that gets no table says so before it opens the file to search or writes anything: its
outcome depends on nothing but the pattern (`Command.run_of_refused`) or what the table was to be
loaded from (`Command.run_of_not_loaded`). With a table, a search exits as its file and its matches
say (`Command.runSearch_of_opened`).
-/

namespace PatternScan

theorem Table.ofBytes_eq_ok_iff {bytes : List UInt8} {t : Table} : ofBytes bytes = .ok t ↔
    ∃ text, bytes = Utf8.encode text ∧ ofText text = .ok t := by
  unfold ofBytes
  rcases hdecode : Utf8.decode bytes with e | text
  · simp only [reduceCtorEq, false_iff, not_exists, not_and]
    rintro text rfl
    exact nomatch hdecode.symm.trans (Utf8.decode_eq_ok_iff.mpr rfl)
  · obtain rfl := Utf8.decode_eq_ok_iff.mp hdecode
    refine ⟨fun h => ⟨text, rfl, h⟩, ?_⟩
    rintro ⟨text', htext, h⟩
    obtain rfl := Except.ok.inj (hdecode.symm.trans (Utf8.decode_eq_ok_iff.mpr htext))
    exact h

section Load

variable {s s' : Surroundings} {path? : Option (List Char)} {t : Table}

theorem Entry.table_eq_ok_iff {entry : Entry} : entry.table = .ok t ↔
    ∃ text, entry = .file (Utf8.encode text) ∧ Table.ofText text = .ok t := by
  cases entry with
  | file bytes => simp [Entry.table, Table.ofBytes_eq_ok_iff]
  | failing bytes reason => simp [Entry.table]
  | directory => simp [Entry.table]

theorem loadTable_eq (s : Surroundings) (path? : Option (List Char)) : loadTable s path? =
    match s.tableEntry path? with
    | .error fault => .error (.unopened (path?.getD []) fault)
    | .ok entry => entry.table.mapError .table := by
  rcases path? with _ | path <;> rfl

theorem loadTable_eq_ok_iff : loadTable s path? = .ok t ↔ s.Holds path? t := by
  rw [loadTable_eq, Surroundings.Holds]
  rcases s.tableEntry path? with fault | entry
  · simp
  · have htable : entry.table.mapError CommandError.table = .ok t ↔ entry.table = .ok t := by
      rcases entry.table with _ | _ <;> simp [Except.mapError]
    simp only [htable, Entry.table_eq_ok_iff, Except.ok.injEq]

theorem exitCode_of_loadTable {e : CommandError} (h : loadTable s path? = .error e) :
    e.exitCode = 2 := by
  rw [loadTable_eq] at h
  split at h
  · obtain rfl := Except.error.inj h
    rfl
  · next entry _ =>
    rcases hentry : entry.table with err | t
    · rw [hentry] at h
      obtain rfl := Except.error.inj h
      rfl
    · rw [hentry] at h
      exact nomatch h

theorem loadTable_congr (h : s'.tableEntry path? = s.tableEntry path?) :
    loadTable s' path? = loadTable s path? := by
  rw [loadTable_eq, loadTable_eq, h]

end Load

section Search

variable {source : Source} {limit? : Option Nat} {told : List SearchEvent} {lines skipped : Nat}

theorem Source.outcome_of_failsWithin (h : source.FailsWithin limit? told) : ∃ reason,
    source.outcome limit? ⟨lines, matchCount told, skipped⟩ (.ok ()) =
      .error (.read (lines + 1) reason) := by
  obtain ⟨reason, hreason⟩ := Option.ne_none_iff_exists'.mp h.1
  exact ⟨reason, by rw [source.outcome_of_forall_lt h.2, hreason]⟩

theorem Source.outcome_of_not_failsWithin (h : ¬ source.FailsWithin limit? told) :
    source.outcome limit? ⟨lines, matchCount told, skipped⟩ (.ok ()) =
      .ok ⟨lines, matchCount told, skipped⟩ := by
  by_cases hlimit : ∀ k ∈ limit?, matchCount told < k
  · have hnone : source.failure? = none := by
      by_contra hsome
      exact h ⟨hsome, hlimit⟩
    rw [source.outcome_of_forall_lt hlimit, hnone]
  · push Not at hlimit
    obtain ⟨k, rfl, hle⟩ := hlimit
    exact source.outcome_of_le hle

end Search

theorem CommandError.outcome_pattern (e : PatternError) : (CommandError.pattern e).outcome =
    ⟨1, [], "error: ".toList ++ e.message ++ " at offset ".toList ++
      Decimal.digits e.span.start ++ ['\n']⟩ := by
  have hline : e.oneLine = e.message ++ " at offset ".toList ++ Decimal.digits e.span.start := by
    rw [PatternError.oneLine, show e.span.start.repr.toList = Decimal.digits e.span.start from
      Nat.toList_repr]
  have houtcome : (CommandError.pattern e).outcome =
      ⟨1, [], [] ++ "error: ".toList ++ e.oneLine ++ ['\n']⟩ := rfl
  rw [houtcome, hline, List.nil_append, ← List.append_assoc, ← List.append_assoc]

theorem OutputOptions.unlimited_printer (o : OutputOptions) (onTerminal : Bool) :
    (o.printer onTerminal).Unlimited :=
  ⟨rfl, rfl⟩

namespace Command

variable {s : Surroundings} {t : Table} {file : List Char} {output : OutputOptions} {c : Command}

theorem runSearch_of_unopened {fault : OpenFault} (h : s.openPath file = .error fault) :
    runSearch s (.ok t) file output = (CommandError.unopened file fault).outcome := by
  simp only [runSearch, searchFile, h]
  rfl

/-- A search prints the matches within its limit, and fails just if its file does before that. -/
theorem searchFile_of_opened {entry : Entry} (h : s.openPath file = .ok entry) :
    let told := t.eventsFrom 1 (t.linesWithin output.maxCount? 1 entry.source.lines)
    ∃ printer result, searchFile s t file output.maxCount? (output.printer s.onTerminal) =
        (printer, result) ∧
      (output.printer s.onTerminal).Prints told printer ∧
      (entry.source.FailsWithin output.maxCount? told → ∃ e, result = .error (.search e)) ∧
      (¬ entry.source.FailsWithin output.maxCount? told →
        ∃ stats, result = .ok stats ∧ stats.matched = matchCount told) := by
  intro told
  obtain ⟨hok, hprints⟩ := Printer.deliver_unlimited told (output.unlimited_printer s.onTerminal)
  have hbuilt : Searcher.Built t output.maxCount? (.new t output.maxCount?) := .new
  obtain ⟨hprinter, hresult⟩ :=
    hbuilt.search_eq Printer.sink (output.printer s.onTerminal) entry.source
  rw [hok] at hresult
  rw [← hprinter] at hprints
  unfold searchFile
  simp only [h]
  rcases hrun : (Searcher.new t output.maxCount?).search Printer.sink
    (output.printer s.onTerminal) entry.source with ⟨printer, searcher, result⟩
  rw [hrun] at hprints hresult
  by_cases hfails : entry.source.FailsWithin output.maxCount? told
  · obtain ⟨reason, herror⟩ := Source.outcome_of_failsWithin hfails
    obtain rfl : result = .error _ := hresult.trans herror
    exact ⟨printer, _, rfl, hprints, fun _ => ⟨_, rfl⟩, fun hnot => absurd hfails hnot⟩
  · obtain rfl : result = .ok _ := hresult.trans (Source.outcome_of_not_failsWithin hfails)
    simp only [hprints.finish rfl]
    exact ⟨printer, _, rfl, hprints, fun h => absurd h hfails, fun _ => ⟨_, rfl, rfl⟩⟩

theorem runSearch_of_opened {entry : Entry} (h : s.openPath file = .ok entry) :
    let told := t.eventsFrom 1 (t.linesWithin output.maxCount? 1 entry.source.lines)
    let outcome := runSearch s (.ok t) file output
    outcome.stdout = records (output.printer s.onTerminal).style told ∧
    (entry.source.FailsWithin output.maxCount? told → outcome.exitCode = 2) ∧
    (¬ entry.source.FailsWithin output.maxCount? told →
      outcome.exitCode = if 0 < matchCount told then 0 else 1) := by
  intro told outcome
  obtain ⟨printer, result, hrun, hprints, hfailed, hended⟩ :=
    searchFile_of_opened (t := t) h
  have houtcome : outcome = runSearch s (.ok t) file output := rfl
  have hout : printer.out.text = records (output.printer s.onTerminal).style told := hprints.out_eq
  simp only [runSearch, hrun] at houtcome
  by_cases hfails : entry.source.FailsWithin output.maxCount? told
  · obtain ⟨e, rfl⟩ := hfailed hfails
    rw [houtcome]
    exact ⟨hout, fun _ => rfl, fun hnot => absurd hfails hnot⟩
  · obtain ⟨stats, rfl, hstats⟩ := hended hfails
    rw [houtcome]
    refine ⟨hout, fun h => absurd h hfails, fun _ => ?_⟩
    simp only [SearchStats.anyMatched, hstats, decide_eq_true_eq]
    rfl

theorem runSearch_of_hasTable (h : c.HasTable s t) (hc : c.candidate? = some (file, output)) :
    run s c = runSearch s (.ok t) file output := by
  cases c with
  | search path table? output' =>
    obtain ⟨rfl, rfl⟩ := Prod.mk.inj (Option.some.inj hc)
    rcases h with ⟨_, hpattern, -⟩ | ⟨path?, hpath, hholds⟩
    · exact nomatch hpattern
    · obtain rfl := Option.some.inj hpath
      rw [run, loadTable_eq_ok_iff.mpr hholds]
  | grep pattern path output' =>
    obtain ⟨rfl, rfl⟩ := Prod.mk.inj (Option.some.inj hc)
    rcases h with ⟨_, hpattern, htable⟩ | ⟨_, hpath, -⟩
    · obtain rfl := Option.some.inj hpattern
      rw [run, compilePattern, htable]
      rfl
    · exact nomatch hpath
  | _ => exact nomatch hc

theorem run_of_refused {pattern : List Char} {e : PatternError} (hc : c.pattern? = some pattern)
    (h : Table.ofPattern pattern = .error e) :
    run s c = ⟨1, [], c.refusal pattern e s.onTerminal⟩ := by
  have hcompile : compilePattern pattern = .error (.pattern e) := by
    rw [compilePattern, h]
    rfl
  cases c with
  | compile p | grep p file output | trace p line verbose color =>
    obtain rfl := Option.some.inj hc
    simp only [run, hcompile, runSearch, CommandError.outcome_pattern, refusal]
  | check p color =>
    obtain rfl := Option.some.inj hc
    simp only [run, checkPattern, h, refusal]
  | dump p table? color =>
    obtain rfl : p = some pattern := hc
    simp only [run, Option.elim_some, hcompile, CommandError.outcome_pattern, refusal]
  | search => exact nomatch hc

theorem run_of_loadTable {path? : Option (List Char)} {e : CommandError}
    (hc : c.tablePath? = some path?) (h : loadTable s path? = .error e) : run s c = e.outcome := by
  cases c with
  | search file table? output =>
    obtain rfl := Option.some.inj hc
    simp only [run, runSearch, h]
  | dump pattern? table? color =>
    rcases pattern? with _ | pattern
    · obtain rfl := Option.some.inj hc
      simp only [run, Option.elim_none, h]
    · exact nomatch hc
  | _ => exact nomatch hc

/-- A table that cannot be loaded keeps all other files from being opened. -/
theorem run_of_not_loaded {path? : Option (List Char)} (hc : c.tablePath? = some path?)
    (h : ∀ t, ¬ s.Holds path? t) : (run s c).stdout = [] ∧ (run s c).exitCode = 2 ∧
      ∀ s' : Surroundings, s'.tableEntry path? = s.tableEntry path? → run s' c = run s c := by
  rcases hload : loadTable s path? with e | t
  · rw [run_of_loadTable hc hload]
    exact ⟨rfl, exitCode_of_loadTable hload,
      fun s' hs' => run_of_loadTable hc ((loadTable_congr hs').trans hload)⟩
  · exact absurd (loadTable_eq_ok_iff.mp hload) (h t)

/-- A pattern that is refused and a table that cannot be loaded decide the outcome alone. Otherwise
a search exits with 2 if its file cannot be opened or fails before the limit on the matches is
reached, and else with 0 or 1, as there are matches or none. -/
theorem run_exits (s : Surroundings) (c : Command) :
    (∀ pattern e, c.pattern? = some pattern → Table.ofPattern pattern = .error e →
      '\n' ∉ e.message ∧ e.fits pattern = true ∧
        run s c = ⟨1, [], c.refusal pattern e s.onTerminal⟩) ∧
    (∀ path?, c.tablePath? = some path? → (∀ t, ¬ s.Holds path? t) →
      (run s c).stdout = [] ∧ (run s c).exitCode = 2 ∧
        ∀ s' : Surroundings, s'.tableEntry path? = s.tableEntry path? → run s' c = run s c) ∧
    ∀ t file output, c.HasTable s t → c.candidate? = some (file, output) →
      (∀ fault, s.openPath file = .error fault →
        (run s c).stdout = [] ∧ (run s c).exitCode = 2) ∧
      ∀ entry, s.openPath file = .ok entry →
        let told := t.eventsFrom 1 (t.linesWithin output.maxCount? 1 entry.source.lines)
        (run s c).stdout = records (output.printer s.onTerminal).style told ∧
        (entry.source.FailsWithin output.maxCount? told → (run s c).exitCode = 2) ∧
        (¬ entry.source.FailsWithin output.maxCount? told →
          (run s c).exitCode = if 0 < matchCount told then 0 else 1) := by
  refine ⟨fun pattern e hc h => ?_, fun path? hc h => run_of_not_loaded hc h,
    fun t file output htable hc => ?_⟩
  · have hparse := Table.ofPattern_eq_error_iff.mp h
    obtain ⟨_, _, _, hlocates⟩ := Expr.exists_locates_of_parse hparse
    exact ⟨Expr.feed_not_mem_message hparse, hlocates.fits, run_of_refused hc h⟩
  · rw [runSearch_of_hasTable htable hc]
    refine ⟨fun fault h => ?_, fun entry h => runSearch_of_opened h⟩
    rw [runSearch_of_unopened h]
    exact ⟨rfl, rfl⟩

/-- A pattern that is refused, given to a check and to a compilation; a table that cannot be read,
in a search of any file; and a file that fails before its first line ends, which a search for no
matches does not come to. -/
theorem run_exits_failing :
    let s : Surroundings := ⟨fun _ => .ok (.failing [97] ['x']), [120], false⟩
    let e := PatternError.nothingToRepeat '*' ⟨0, 1⟩
    let search := Command.search ['f'] none ⟨false, false, none, .auto⟩
    let grep := fun maxCount? => Command.grep ['a'] ['f'] ⟨false, false, maxCount?, .auto⟩
    run s (.check ['*'] .auto) = ⟨1, [], e.render ['*'] false⟩ ∧
      run s (.compile ['*']) = ⟨1, [],
        "error: '*' has nothing to repeat (escape it as '\\*') at offset 0\n".toList⟩ ∧
      ((run s search).stdout = [] ∧ (run s search).exitCode = 2 ∧
        ∀ openPath, run { s with openPath } search = run s search) ∧
      (run s (grep none)).exitCode = 2 ∧ (run s (grep (some 0))).exitCode = 1 ∧
        (run s (grep (some 0))).stdout = [] := by
  intro s e search grep
  have hrefused : Table.ofPattern ['*'] = .error e := rfl
  obtain ⟨-, -, hcheck⟩ := (run_exits s (.check ['*'] .auto)).1 ['*'] e rfl hrefused
  obtain ⟨-, -, hcompile⟩ := (run_exits s (.compile ['*'])).1 ['*'] e rfl hrefused
  have hrefusal : refusal ['*'] e false (.compile ['*']) =
      "error: '*' has nothing to repeat (escape it as '\\*') at offset 0\n".toList := by decide
  have hunread : ∀ t, ¬ s.Holds none t := by
    intro t ht
    cases loadTable_eq_ok_iff.mpr ht
  obtain ⟨hstdout, hcode, hsame⟩ := (run_exits s search).2.1 none rfl hunread
  obtain ⟨t, ht⟩ : ∃ t, Table.ofPattern ['a'] = .ok t := ⟨_, rfl⟩
  have htable : ∀ maxCount?, (grep maxCount?).HasTable s t := fun _ => .inl ⟨['a'], rfl, ht⟩
  obtain ⟨-, hfails, -⟩ := ((run_exits s (grep none)).2.2 t _ _ (htable none) rfl).2 _ rfl
  obtain ⟨hout, -, hends⟩ := ((run_exits s (grep (some 0))).2.2 t _ _ (htable (some 0)) rfl).2 _ rfl
  refine ⟨hcheck, hrefusal ▸ hcompile, ⟨hstdout, hcode, fun openPath => hsame _ rfl⟩,
    hfails ⟨nofun, nofun⟩, hends fun hfails => ?_, hout⟩
  exact absurd (hfails.2 0 rfl) (Nat.not_lt_zero _)

end Command

end PatternScan
