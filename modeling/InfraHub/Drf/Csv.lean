import InfraHub.Lib.Bytes
import InfraHub.Lib.Csv
import InfraHub.Lib.Gather
import InfraHub.Lib.Text

/-!
# Drf — Csv

The CSV files of an export, and their import.

`CSVFileRenderer` puts an apostrophe before a cell that a spreadsheet would take for a formula,
`CSVFileParser` takes it away (`parse_render_iff`).  In between the parser cuts the bytes into lines,
also within quotes, and strips the order mark byte by byte.  `csv_round_trip_iff` says which rows
come back.
-/

namespace InfraHub.Drf
open InfraHub.Lib (isspace Bytes encode encode_append decode decode_eq_some splitlines
  splitlines_append splitlines_sublist not_break_of_mem_splitlines line_break ascii_of_mem_encode
  mem_encode_of_ascii head_encode from_f000 code_of_f000 count_encode bstrip forall₂_of_mapM exists_of_mem_mapM
  mapM_of_forall)
open InfraHub.Lib.Csv (Cell special quote field line writerow reader reader_rows countP_reader
  countP_line)

/-! ### The renderer -/

def CSV_FILE_ESCAPE_CHARS : List Char := ['=', '@', '0']

def BOM_UTF8 : Bytes := [0xEF, 0xBB, 0xBF]

def space (c : Char) : Bool := isspace c.toNat

def apostrophe : Char := Char.ofNat 0x27

def dquote : Char := Char.ofNat 0x22

/-- `d.strip()`. -/
def stripped (d : Cell) : Cell := (d.rdropWhile space).dropWhile space

/-- `d.strip().startswith(self.escape_chars)`. -/
def escaped (d : Cell) : Bool := (stripped d).head?.any fun c => c ∈ CSV_FILE_ESCAPE_CHARS

/-- `__render_row`, for one cell. -/
def render_cell (d : Cell) : Cell := if escaped d then apostrophe :: d else d

def initial_writer : Bytes := BOM_UTF8

def write_row (buffer : Bytes) (row : List Cell) : Bytes :=
  buffer ++ encode (writerow (row.map render_cell))

/-- `get_rendered_value` after the rows. -/
def get_rendered_value (rows : List (List Cell)) : Bytes := rows.foldl write_row initial_writer

/-! ### The parser -/

def match_escape_chars : List (List Char) :=
  CSV_FILE_ESCAPE_CHARS.flatMap fun c => [[dquote, c], [apostrophe, c]]

/-- `d.strip().startswith(self.match_escape_chars)`. -/
def matched (d : Cell) : Bool := match_escape_chars.any fun chars => chars.isPrefixOf (stripped d)

/-- `__parse_row`, for one cell. -/
def parse_cell (d : Cell) : Cell :=
  if matched d then (d.dropWhile fun c => c = apostrophe).dropWhile fun c => c = dquote else d

def get_stream_data (stream : Bytes) : Bytes := bstrip BOM_UTF8 stream

/-- The rows, or no row if a line is not UTF-8. -/
def generate_rows (stream_data : Bytes) : Option (List (List Cell)) :=
  ((splitlines stream_data).mapM decode).map fun lines =>
    (reader lines).map fun row => row.map parse_cell

/-! ### Cells -/

/-- The cell starts with a quote and a character that is escaped. -/
def QuotedEscape (d : Cell) : Prop :=
  ∃ q c rest, d = q :: c :: rest ∧ (q = apostrophe ∨ q = dquote) ∧ c ∈ CSV_FILE_ESCAPE_CHARS

section
variable {d : Cell} {c q : Char}

theorem not_space_of_escape (h : c ∈ CSV_FILE_ESCAPE_CHARS) : space c = false := by
  simp only [CSV_FILE_ESCAPE_CHARS, List.mem_cons, List.not_mem_nil, or_false] at h
  rcases h with rfl | rfl | rfl
  · decide
  · decide
  · decide

theorem not_space_of_quote (h : q = apostrophe ∨ q = dquote) : space q = false := by
  rcases h with rfl | rfl
  · decide
  · decide

theorem not_quote_of_escape (h : c ∈ CSV_FILE_ESCAPE_CHARS) : c ≠ apostrophe ∧ c ≠ dquote := by
  simp only [CSV_FILE_ESCAPE_CHARS, List.mem_cons, List.not_mem_nil, or_false] at h
  rcases h with rfl | rfl | rfl
  · decide
  · decide
  · decide

theorem matched_iff : matched d ↔ QuotedEscape (stripped d) := by
  simp only [matched, match_escape_chars, List.any_eq_true, List.mem_flatMap, List.mem_cons,
    List.not_mem_nil, or_false, List.isPrefixOf_iff_prefix, QuotedEscape]
  constructor
  · rintro ⟨_, ⟨c, hc, rfl | rfl⟩, rest, hrest⟩
    · exact ⟨dquote, c, rest, hrest.symm, .inr rfl, hc⟩
    · exact ⟨apostrophe, c, rest, hrest.symm, .inl rfl, hc⟩
  · rintro ⟨q, c, rest, hd, rfl | rfl, hc⟩
    · exact ⟨_, ⟨c, hc, .inr rfl⟩, rest, hd.symm⟩
    · exact ⟨_, ⟨c, hc, .inl rfl⟩, rest, hd.symm⟩

theorem escaped_iff : escaped d ↔ ∃ c ∈ CSV_FILE_ESCAPE_CHARS, (stripped d).head? = some c := by
  cases h : (stripped d).head? with
  | none => simp [escaped, h]
  | some c => simp [escaped, h]

theorem rdropWhile_cons (h : space q = false) :
    (q :: d).rdropWhile space = q :: d.rdropWhile space := by
  simp only [List.rdropWhile, List.reverse_cons, List.dropWhile_append]
  split_ifs with hempty
  · simp [h, List.isEmpty_iff.mp hempty]
  · simp

/-- What does not start with a space is stripped at the end only. -/
theorem stripped_cons (h : space q = false) : stripped (q :: d) = q :: d.rdropWhile space := by
  rw [stripped, rdropWhile_cons h, List.dropWhile_cons_of_neg (by simp [h])]

/-- A cell with a quote before the escape is taken for an escaped one. -/
theorem parse_ne_of_quoted (h : QuotedEscape d) : parse_cell d ≠ d := by
  obtain ⟨q, c, rest, rfl, hq, hc⟩ := h
  have hmatched : matched (q :: c :: rest) := by
    refine matched_iff.mpr ⟨q, c, rest.rdropWhile space, ?_, hq, hc⟩
    rw [stripped_cons (not_space_of_quote hq), rdropWhile_cons (not_space_of_escape hc)]
  obtain ⟨hapostrophe, hdquote⟩ := not_quote_of_escape hc
  intro heq
  have hlength := congrArg List.length heq
  rw [parse_cell, if_pos hmatched] at hlength
  rcases hq with rfl | rfl
  · simp [hapostrophe, hdquote] at hlength
  · have hne : dquote ≠ apostrophe := by decide
    simp [hdquote, hne] at hlength

/-- **Which cells come back** from the escaping. -/
theorem parse_render_iff :
    parse_cell (render_cell d) = d ↔
      (escaped d → ∃ c ∈ CSV_FILE_ESCAPE_CHARS, d.head? = some c) ∧ ¬ QuotedEscape d := by
  by_cases hescaped : escaped d
  · obtain ⟨c, hc, hhead⟩ := escaped_iff.mp hescaped
    rw [render_cell, if_pos hescaped]
    cases hd : d.rdropWhile space with
    | nil => simp [stripped, hd] at hhead
    | cons x xs =>
        obtain ⟨rest, rfl⟩ : x :: xs <+: d := hd ▸ List.rdropWhile_prefix space _
        have hstripped : stripped (apostrophe :: (x :: xs ++ rest)) = apostrophe :: x :: xs := by
          rw [stripped_cons (by decide), hd]
        by_cases hx : x ∈ CSV_FILE_ESCAPE_CHARS
        · -- the apostrophe is taken away again
          have hmatched : matched (apostrophe :: (x :: xs ++ rest)) :=
            matched_iff.mpr ⟨apostrophe, x, xs, hstripped, .inl rfl, hx⟩
          obtain ⟨hapostrophe, hdquote⟩ := not_quote_of_escape hx
          refine iff_of_true ?_ ⟨fun _ => ⟨x, hx, rfl⟩, ?_⟩
          · rw [parse_cell, if_pos hmatched]
            simp [hapostrophe, hdquote]
          · rintro ⟨q, c, rest', heq, hq, -⟩
            obtain rfl : x = q := List.head_eq_of_cons_eq heq
            exact hq.elim hapostrophe hdquote
        · -- it stays, before the space
          have hmatched : ¬ matched (apostrophe :: (x :: xs ++ rest)) := by
            rw [matched_iff, hstripped]
            rintro ⟨q, c, rest', heq, -, hc⟩
            obtain ⟨-, heq⟩ := List.cons.inj heq
            exact hx (List.head_eq_of_cons_eq heq ▸ hc)
          refine iff_of_false ?_ fun h => ?_
          · rw [parse_cell, if_neg hmatched]
            exact List.cons_ne_self _ _
          · obtain ⟨c, hc, hhead⟩ := h.1 hescaped
            exact hx (Option.some.inj hhead ▸ hc)
  · rw [render_cell, if_neg hescaped]
    by_cases hquoted : QuotedEscape d
    · exact iff_of_false (parse_ne_of_quoted hquoted) fun h => h.2 hquoted
    · refine iff_of_true ?_ ⟨fun h => absurd h hescaped, hquoted⟩
      unfold parse_cell
      split_ifs with hmatched
      · -- a space comes first, so that no quote is taken away
        obtain ⟨q, c, rest, hstripped, hq, hc⟩ := matched_iff.mp hmatched
        cases d with
        | nil => cases hstripped
        | cons x d =>
            cases hx : space x with
            | true =>
                have hapostrophe : x ≠ apostrophe := by
                  rintro rfl
                  cases hx
                have hdquote : x ≠ dquote := by
                  rintro rfl
                  cases hx
                simp [hapostrophe, hdquote]
            | false =>
                rw [stripped_cons hx] at hstripped
                obtain ⟨rfl, hrest⟩ := List.cons.inj hstripped
                obtain ⟨rest', rfl⟩ : c :: rest <+: d := hrest ▸ List.rdropWhile_prefix space _
                exact absurd ⟨x, c, rest ++ rest', rfl, hq, hc⟩ hquoted
      · rfl

end

/-! ### Files -/

/-- The characters of the file. -/
def text (rows : List (List Cell)) : List Char :=
  rows.flatMap fun row => writerow (row.map render_cell)

/-- A line break of the parser. -/
def breaks (c : Char) : Bool := c = '\n' ∨ c = '\r'

/-- The cell has no line break, no space before a character that is escaped, and no quote before
one. -/
def CellOk (d : Cell) : Prop :=
  ¬ d.any breaks ∧ (escaped d → ∃ c ∈ CSV_FILE_ESCAPE_CHARS, d.head? = some c) ∧ ¬ QuotedEscape d

/-- The first cell of the file is quoted, if it starts with a character from U+F000 to U+FFFF. -/
def FirstOk (rows : List (List Cell)) : Prop :=
  ∀ d, rows.head?.bind List.head? = some d → (d.head?.any from_f000) → d.any special

section
variable {rows : List (List Cell)} {d : Cell}

theorem get_rendered_value_eq (rows : List (List Cell)) :
    get_rendered_value rows = BOM_UTF8 ++ encode (text rows) := by
  have hfold (buffer : Bytes) : rows.foldl write_row buffer = buffer ++ encode (text rows) := by
    induction rows generalizing buffer with
    | nil => simp [text]
    | cons row rows ih => simp [List.foldl_cons, ih, write_row, text]
  exact hfold _

theorem encode_writerow (row : List Cell) : encode (writerow row) = encode (line row) ++ [13, 10] := by
  rw [writerow, encode_append]
  rfl

/-- **The bytes that are stripped**: the order mark, and what follows it among its bytes. -/
theorem get_stream_data_rendered :
    get_stream_data (get_rendered_value rows) =
      ((encode (text rows)).dropWhile (· ∈ BOM_UTF8)).rdropWhile (· ∈ BOM_UTF8) := by
  rw [get_rendered_value_eq, get_stream_data, bstrip]
  congr 1

theorem countP_render {p : Char → Bool} (hapostrophe : p apostrophe = false) (row : List Cell) :
    (row.map render_cell).flatten.countP p = row.flatten.countP p := by
  have hcell (d : Cell) : (render_cell d).countP p = d.countP p := by
    unfold render_cell
    split_ifs
    · simp [hapostrophe]
    · rfl
  induction row with
  | nil => rfl
  | cons d row ih => simp [List.countP_append, hcell, ih]

/-- The writer and the escaping keep the other characters. -/
theorem countP_text {p : Char → Bool} (hcomma : p ',' = false) (hquote : p '"' = false)
    (hapostrophe : p apostrophe = false) (hcr : p '\r' = false) (hlf : p '\n' = false) :
    (text rows).countP p = rows.flatten.flatten.countP p := by
  induction rows with
  | nil => rfl
  | cons row rows ih =>
      simp only [text, List.flatMap_cons, List.countP_append, List.flatten_cons,
        List.flatten_append] at ih ⊢
      rw [ih, writerow, List.countP_append, countP_line hcomma hquote,
        countP_render hapostrophe]
      simp [hcr, hlf]

theorem countP_parse (p : Char → Bool) (rows : List (List Cell)) :
    (rows.map fun row => row.map parse_cell).flatten.flatten.countP p ≤
      rows.flatten.flatten.countP p := by
  have hcell (d : Cell) : (parse_cell d).countP p ≤ d.countP p := by
    unfold parse_cell
    split_ifs
    · exact ((List.dropWhile_sublist _).trans (List.dropWhile_sublist _)).countP_le
    · exact le_rfl
  have hrow (row : List Cell) : (row.map parse_cell).flatten.countP p ≤ row.flatten.countP p := by
    induction row with
    | nil => exact le_rfl
    | cons d row ih =>
        have hd := hcell d
        simp only [List.map_cons, List.flatten_cons, List.countP_append]
        omega
  induction rows with
  | nil => exact le_rfl
  | cons row rows ih =>
      have hfirst := hrow row
      simp only [List.map_cons, List.flatten_cons, List.flatten_append, List.countP_append]
      omega

/-- **What is read was there**: the parser makes up no characters. -/
theorem countP_generate {data : Bytes} (h : generate_rows data = some rows) :
    ∃ lines, (splitlines data).mapM decode = some lines ∧
      ∀ p : Char → Bool, rows.flatten.flatten.countP p ≤ lines.flatten.countP p := by
  obtain ⟨lines, hlines, rfl⟩ := Option.map_eq_some_iff.mp h
  exact ⟨lines, hlines, fun p => (countP_parse p _).trans (countP_reader lines)⟩

/-- No cell that is read has a line break. -/
theorem no_breaks {data : Bytes} (h : generate_rows data = some rows) :
    ∀ row ∈ rows, ∀ d ∈ row, ¬ d.any breaks := by
  obtain ⟨lines, hlines, hcount⟩ := countP_generate h
  have hnone : lines.flatten.countP breaks = 0 := by
    refine List.countP_eq_zero.mpr fun c hc hbreak => ?_
    obtain ⟨l, hl, hc⟩ := List.mem_flatten.mp hc
    obtain ⟨bytes, hbytes, hdecode⟩ := exists_of_mem_mapM hlines hl
    obtain rfl := decode_eq_some.mp hdecode
    refine not_break_of_mem_splitlines hbytes (UInt8.ofNat c.toNat) (mem_encode_of_ascii hc ?_) ?_
    · rcases of_decide_eq_true hbreak with rfl | rfl
      · decide
      · decide
    · rcases of_decide_eq_true hbreak with rfl | rfl
      · exact .inl rfl
      · exact .inr rfl
  intro row hrow d hd hbreak
  obtain ⟨c, hc, hbreak⟩ := List.any_eq_true.mp hbreak
  have hzero := Nat.eq_zero_of_le_zero (hnone ▸ hcount breaks)
  refine List.countP_eq_zero.mp hzero c ?_ hbreak
  exact List.mem_flatten.mpr ⟨d, List.mem_flatten.mpr ⟨row, hrow, hd⟩, hc⟩

theorem not_space_of_f000 {c : Char} (h : from_f000 c) : space c = false := by
  simp only [from_f000, decide_eq_true_eq] at h
  simp only [space, isspace, decide_eq_false_iff_not]
  omega

/-- A cell that starts with such a character is not escaped. -/
theorem not_escaped_of_f000 {c : Char} (h : from_f000 c) (d : Cell) : ¬ escaped (c :: d) := by
  rw [escaped_iff, stripped_cons (not_space_of_f000 h)]
  rintro ⟨c', hc', heq⟩
  obtain rfl : c = c' := Option.some.inj heq
  simp only [CSV_FILE_ESCAPE_CHARS, List.mem_cons, List.not_mem_nil, or_false] at hc'
  rcases hc' with rfl | rfl | rfl
  · cases h
  · cases h
  · cases h

/-- The file starts with such a character. -/
theorem head_text_of_not_ok (h : ¬ FirstOk rows) : ∃ c, (text rows).head? = some c ∧ from_f000 c := by
  simp only [FirstOk, not_forall] at h
  obtain ⟨d, hd, hfirst, hplain⟩ := h
  obtain ⟨row, hrow, hhead⟩ := Option.bind_eq_some_iff.mp hd
  obtain ⟨rest, rfl⟩ := List.head?_eq_some_iff.mp hrow
  obtain ⟨ds, rfl⟩ := List.head?_eq_some_iff.mp hhead
  cases d with
  | nil => cases hfirst
  | cons c d =>
      have hc : from_f000 c := by simpa using hfirst
      obtain ⟨tail, hline, -⟩ := InfraHub.Lib.Csv.line_cons (c :: d) (ds.map render_cell)
      refine ⟨c, ?_, hc⟩
      have hrender : render_cell (c :: d) = c :: d := if_neg (not_escaped_of_f000 hc d)
      simp [text, writerow, hrender, hline, field, hplain]

theorem head_text_of_ok (hok : FirstOk rows) (hrows : ∀ row ∈ rows, row ≠ []) {c : Char}
    (hc : (text rows).head? = some c) : ¬ from_f000 c := by
  cases rows with
  | nil => cases hc
  | cons row rows =>
      obtain ⟨d, ds, rfl⟩ := List.exists_cons_of_ne_nil (hrows row List.mem_cons_self)
      obtain ⟨tail, hline, htail⟩ := InfraHub.Lib.Csv.line_cons (render_cell d) (ds.map render_cell)
      simp only [text, List.flatMap_cons, writerow, List.map_cons, hline, List.append_assoc] at hc
      unfold field at hc
      split_ifs at hc with hquote
      · obtain rfl : '"' = c := by simpa [quote] using hc
        decide
      · obtain ⟨hplain, halone⟩ := not_or.mp hquote
        cases hcell : render_cell d with
        | nil =>
            rw [hcell, List.nil_append] at hc
            rcases htail with ⟨hds, -⟩ | ⟨tail', rfl⟩
            · exact absurd ⟨decide_eq_true hds, hcell⟩ halone
            · obtain rfl : ',' = c := by simpa using hc
              decide
        | cons x xs =>
            rw [hcell] at hc
            obtain rfl : x = c := by simpa using hc
            intro hx
            unfold render_cell at hcell hplain
            split_ifs at hcell hplain
            · obtain rfl : apostrophe = x := List.head_eq_of_cons_eq hcell
              cases hx
            · exact hplain (hok d rfl (by simp [hcell, hx]))

/-- **Only the order mark is stripped** from a file whose first cell is ok. -/
theorem get_stream_data_of_ok (hok : FirstOk rows) (hrows : ∀ row ∈ rows, row ≠ []) :
    get_stream_data (get_rendered_value rows) = encode (text rows) := by
  have hhead : (encode (text rows)).dropWhile (· ∈ BOM_UTF8) = encode (text rows) := by
    cases hbytes : encode (text rows) with
    | nil => rfl
    | cons x rest =>
        refine List.dropWhile_cons_of_neg fun hx => ?_
        obtain ⟨c, hc, hf000⟩ := head_encode hbytes (by simpa [BOM_UTF8] using hx)
        exact head_text_of_ok hok hrows hc hf000
  have hlast (hne : encode (text rows) ≠ []) : (encode (text rows)).getLast hne = 10 := by
    have hend (rows : List (List Cell)) (hrows : rows ≠ []) : ∃ t, text rows = t ++ ['\n'] := by
      obtain ⟨before, row, rfl⟩ := (List.eq_nil_or_concat' rows).resolve_left hrows
      exact ⟨text before ++ (line (row.map render_cell) ++ ['\r']), by simp [text, writerow]⟩
    have hrows : rows ≠ [] := by
      rintro rfl
      exact hne rfl
    obtain ⟨t, ht⟩ := hend rows hrows
    have hbytes : encode (text rows) = encode t ++ [10] := by
      rw [ht, encode_append]
      rfl
    simp [hbytes]
  rw [get_stream_data_rendered, hhead]
  refine List.rdropWhile_eq_self_iff.mpr fun hne => ?_
  rw [hlast hne]
  decide

/-- A file whose first cell is not ok loses bytes of it. -/
theorem count_stream_lt (h : ¬ FirstOk rows) :
    (get_stream_data (get_rendered_value rows)).count 0xEF < (encode (text rows)).count 0xEF := by
  obtain ⟨c, hc, hf000⟩ := head_text_of_not_ok h
  obtain ⟨s, hs⟩ := List.head?_eq_some_iff.mp hc
  obtain ⟨code, hcode⟩ := code_of_f000 hf000
  have hbytes : encode (text rows) = 0xEF :: (code ++ encode s) := by
    rw [hs, InfraHub.Lib.encode_cons, hcode, List.cons_append]
  rw [get_stream_data_rendered, hbytes, List.dropWhile_cons_of_pos (by decide), List.count_cons_self]
  refine Nat.lt_succ_of_le (List.Sublist.count_le _ ?_)
  exact (List.rdropWhile_prefix _ _).sublist.trans (List.dropWhile_sublist _)

/-- The lines have as many of the characters as their bytes show. -/
theorem countP_lines {lines : List (List Char)} {bytes : List Bytes}
    (h : bytes.mapM decode = some lines) :
    lines.flatten.countP from_f000 ≤ bytes.flatten.count 0xEF := by
  have hall := forall₂_of_mapM h
  clear h
  induction hall with
  | nil => exact le_rfl
  | cons hdecode _ ih =>
      obtain rfl := decode_eq_some.mp hdecode
      rw [List.flatten_cons, List.flatten_cons, List.countP_append, List.count_append, count_encode]
      omega

/-- **What is read of a file without line breaks in its cells**: every cell, escaped and unescaped. -/
theorem generate_rows_text (hrows : ∀ row ∈ rows, row ≠ [])
    (hbreaks : ∀ row ∈ rows, ∀ d ∈ row, ¬ d.any breaks) :
    generate_rows (encode (text rows)) =
      some (rows.map fun row => row.map fun d => parse_cell (render_cell d)) := by
  have hline (row : List Cell) (hrow : ∀ d ∈ row, ¬ d.any breaks) :
      ∀ x ∈ encode (line (row.map render_cell)), ¬ line_break x := by
    have hnone : (line (row.map render_cell)).countP breaks = 0 := by
      rw [countP_line (by decide) (by decide), countP_render (by decide)]
      refine List.countP_eq_zero.mpr fun c hc hbreak => ?_
      obtain ⟨d, hd, hc⟩ := List.mem_flatten.mp hc
      exact hrow d hd (List.any_eq_true.mpr ⟨c, hc, hbreak⟩)
    intro x hx hbreak
    have hascii : x.toNat = 10 ∨ x.toNat = 13 := by
      rcases hbreak with rfl | rfl
      · exact .inl rfl
      · exact .inr rfl
    obtain ⟨c, hc, hcode⟩ := ascii_of_mem_encode hx (by omega)
    refine List.countP_eq_zero.mp hnone c hc (decide_eq_true ?_)
    rcases hascii with hascii | hascii
    · exact .inl (Char.toNat_inj.mp (hcode.trans hascii))
    · exact .inr (Char.toNat_inj.mp (hcode.trans hascii))
  have hlines : splitlines (encode (text rows)) =
      rows.map fun row => encode (line (row.map render_cell)) := by
    clear hrows
    induction rows with
    | nil => rfl
    | cons row rows ih =>
        obtain ⟨hrow, hrest⟩ := List.forall_mem_cons.mp hbreaks
        have htext : encode (text (row :: rows)) =
            encode (line (row.map render_cell)) ++ 13 :: 10 :: encode (text rows) := by
          simp only [text, List.flatMap_cons, encode_append, encode_writerow, List.append_assoc]
          rfl
        rw [htext, splitlines_append (hline row hrow), ih hrest, List.map_cons]
  have hdecode : ((rows.map fun row => encode (line (row.map render_cell))).mapM decode) =
      some ((rows.map fun row => row.map render_cell).map line) := by
    rw [List.map_map, List.mapM_map]
    exact mapM_of_forall fun row _ => decode_eq_some.mpr rfl
  have hrendered : ∀ row ∈ rows.map (fun row => row.map render_cell), row ≠ [] := by
    simpa using hrows
  have hread := reader_rows hrendered
  rw [generate_rows, hlines, hdecode, Option.map_some, hread]
  simp

end

/-- **Which rows come back.** -/
theorem csv_round_trip_iff {rows : List (List Cell)} (h : ∀ row ∈ rows, row ≠ []) :
    generate_rows (get_stream_data (get_rendered_value rows)) = some rows ↔
      (∀ row ∈ rows, ∀ d ∈ row, CellOk d) ∧ FirstOk rows := by
  constructor
  · intro hread
    have hbreaks := no_breaks hread
    have hfirst : FirstOk rows := by
      by_contra hfirst
      obtain ⟨lines, hlines, hcount⟩ := countP_generate hread
      have hlt := count_stream_lt hfirst
      have hbytes : lines.flatten.countP from_f000 ≤
          (get_stream_data (get_rendered_value rows)).count 0xEF :=
        (countP_lines hlines).trans ((splitlines_sublist _).count_le _)
      have hle := hcount from_f000
      rw [count_encode, countP_text (by decide) (by decide) (by decide) (by decide) (by decide)] at hlt
      omega
    refine ⟨fun row hrow d hd => ⟨hbreaks row hrow d hd, ?_⟩, hfirst⟩
    rw [get_stream_data_of_ok hfirst h, generate_rows_text h hbreaks, Option.some.injEq] at hread
    have hrows : rows.map (fun row => row.map fun d => parse_cell (render_cell d)) = rows.map id := by
      rw [hread, List.map_id]
    have hcells : row.map (fun d => parse_cell (render_cell d)) = row.map id :=
      (List.map_inj_left.mp hrows row hrow).trans (List.map_id _).symm
    exact parse_render_iff.mp (List.map_inj_left.mp hcells d hd)
  · rintro ⟨hcells, hfirst⟩
    rw [get_stream_data_of_ok hfirst h,
      generate_rows_text h fun row hrow d hd => (hcells row hrow d hd).1, Option.some.injEq]
    refine (List.map_congr_left fun row hrow => ?_).trans (List.map_id _)
    refine (List.map_congr_left fun d hd => ?_).trans (List.map_id _)
    exact parse_render_iff.mpr (hcells row hrow d hd).2

/-- A formula comes back, and so does a comma. -/
theorem csv_round_trip_formula :
    generate_rows (get_stream_data (get_rendered_value [[['=', 'A', '1'], ['a', ',', 'b']]])) =
      some [[['=', 'A', '1'], ['a', ',', 'b']]] := by
  refine (csv_round_trip_iff (by decide)).mpr ⟨?_, fun d hd hf000 => ?_⟩
  · simp only [forall_eq, List.mem_cons, List.not_mem_nil, or_false,
      forall_eq_or_imp]
    refine ⟨⟨by decide, fun _ => ⟨'=', by decide, rfl⟩, ?_⟩, by decide, fun h => ?_, ?_⟩
    · rintro ⟨q, c, rest, heq, rfl | rfl, -⟩
      · cases heq
      · cases heq
    · revert h
      decide
    · rintro ⟨q, c, rest, heq, rfl | rfl, -⟩
      · cases heq
      · cases heq
  · obtain rfl : ['=', 'A', '1'] = d := Option.some.inj hd
    revert hf000
    decide

/-- **A line break is lost**, also in a quoted cell. -/
theorem line_break_is_lost :
    ¬ ∀ rows : List (List Cell), (∀ row ∈ rows, row ≠ []) →
      generate_rows (get_stream_data (get_rendered_value rows)) = some rows := by
  intro hall
  have hread := hall [[['a', '\n', 'b']]] (by decide)
  exact no_breaks hread _ List.mem_cons_self _ List.mem_cons_self (by decide)

end InfraHub.Drf
