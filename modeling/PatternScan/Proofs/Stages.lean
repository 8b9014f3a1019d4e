import PatternScan.CommandLine.Run
import PatternScan.Proofs.Encoding
import PatternScan.Proofs.Reload
import PatternScan.Proofs.Size

/-!
# A search in two stages

To search a file by a pattern is the same as to write the table of the pattern first and then to
search by the written table, which is loaded as it was. Both ways open the file after they have a
table, and tell the same of it whatever it is. That the states of a pattern can be numbered, which
the written form asks for, is no matter for patterns that can be given on a command line
(`Table.size_le_of_ofPattern`).
-/

namespace PatternScan

/-- The bytes of a table that is loaded from its written form are those of that form. -/
theorem Table.ofBytes_encode_text {source : List Char} {t : Table}
    (h : Table.ofPattern source = .ok t) (hsize : t.size ≤ Next.idLimit) :
    Table.ofBytes (Utf8.encode t.text) = .ok t := by
  rw [Table.ofBytes, Utf8.decode_eq_ok_iff.mpr rfl]
  exact Table.ofText_text_of_no_feed hsize fun s hs hfeed =>
    Table.not_isLineBreak_of_ofPattern h hs hfeed (.inl rfl)

theorem compilePattern_eq_ok {pattern : List Char} {t : Table}
    (h : Table.ofPattern pattern = .ok t) : compilePattern pattern = .ok t := by
  rw [compilePattern, h]
  rfl

namespace Command

variable {s s' : Surroundings} {pattern file : List Char} {t : Table}

/-- What surrounds a search is the file and whether the output goes to a terminal. -/
theorem runSearch_congr (hfile : s'.openPath file = s.openPath file)
    (hterminal : s'.onTerminal = s.onTerminal) (table : Except CommandError Table)
    (output : OutputOptions) : runSearch s' table file output = runSearch s table file output := by
  unfold runSearch searchFile
  rw [hfile, hterminal]

theorem stdout_run_compile (h : Table.ofPattern pattern = .ok t) (s : Surroundings) :
    (run s (.compile pattern)).stdout = t.text := by
  rw [run, compilePattern_eq_ok h]

theorem loadTable_stdin (h : Table.ofPattern pattern = .ok t) (hsize : t.size ≤ Next.idLimit)
    (hstdin : s.stdin = Utf8.encode t.text) : loadTable s none = .ok t := by
  rw [loadTable, hstdin, Table.ofBytes_encode_text h hsize]
  rfl

theorem loadTable_path (h : Table.ofPattern pattern = .ok t) (hsize : t.size ≤ Next.idLimit)
    {path : List Char} (hpath : s.openPath path = .ok (.file (Utf8.encode t.text))) :
    loadTable s (some path) = .ok t := by
  rw [loadTable, hpath]
  simp only [Entry.table, Table.ofBytes_encode_text h hsize]
  rfl

/-- Searching a file by what is written for a pattern, be it on the standard input or in a file, has
the outcome of searching it by the pattern, as long as the states of the pattern can be numbered. -/
theorem run_search_written (h : Table.ofPattern pattern = .ok t) (hsize : t.size ≤ Next.idLimit)
    (hfile : s'.openPath file = s.openPath file) (hterminal : s'.onTerminal = s.onTerminal)
    (output : OutputOptions) (before : Surroundings) :
    (s'.stdin = Utf8.encode (run before (.compile pattern)).stdout →
      run s' (.search file none output) = run s (.grep pattern file output)) ∧
    ∀ path, s'.openPath path = .ok (.file (Utf8.encode (run before (.compile pattern)).stdout)) →
      run s' (.search file (some path) output) = run s (.grep pattern file output) := by
  rw [stdout_run_compile h before]
  refine ⟨fun hstdin => ?_, fun path hpath => ?_⟩
  · rw [run, run, loadTable_stdin h hsize hstdin, compilePattern_eq_ok h]
    exact runSearch_congr hfile hterminal _ output
  · rw [run, run, loadTable_path h hsize hpath, compilePattern_eq_ok h]
    exact runSearch_congr hfile hterminal _ output

/-- A line that is not text and a line that matches, the table on the standard input or in a file
beside. -/
theorem run_search_written_comma :
    let s : Surroundings :=
      ⟨fun path => if path = ['f'] then .ok (.file [0xFF, 0x0A, 0x62, 0x2C]) else .error .notFound,
        [], false⟩
    let written := Utf8.encode (run s (.compile [',', '|', 'c'])).stdout
    let s' : Surroundings :=
      ⟨fun path => if path = ['t'] then .ok (.file written) else s.openPath path, written, false⟩
    let output : OutputOptions := ⟨true, false, some 1, .auto⟩
    run s' (.search ['f'] none output) = run s (.grep [',', '|', 'c'] ['f'] output) ∧
      run s' (.search ['f'] (some ['t']) output) = run s (.grep [',', '|', 'c'] ['f'] output) := by
  intro s written s' output
  obtain ⟨t, ht⟩ : ∃ t, Table.ofPattern [',', '|', 'c'] = .ok t := ⟨_, rfl⟩
  have hsize : t.size ≤ Next.idLimit := (Table.size_le_of_ofPattern ht).trans (by decide)
  have h := @run_search_written s s' _ ['f'] t ht hsize rfl rfl output s
  exact ⟨h.1 rfl, h.2 ['t'] rfl⟩

end Command

end PatternScan
