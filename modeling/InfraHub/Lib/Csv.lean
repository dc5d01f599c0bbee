import Mathlib.Data.List.Count
import Mathlib.Data.List.Flatten
import Mathlib.Algebra.Order.Group.Nat

/-!
# Library — Csv

Comma-separated values with minimal quoting and doubled quotes: the dialect `excel` of Python's `csv`.

* `writerow` writes a row with its end of line.
* `reader` reads lines that come without their ends; inside quotes a row goes on in the next line.
* `read_row` and `reader_rows`: what was written is read, if no cell has a line break.
* `countP_reader`: the reader makes up no characters.
-/

namespace InfraHub.Lib.Csv

abbrev Cell := List Char

/-! ### Writing -/

/-- A character that needs quotes. -/
def special (c : Char) : Bool := c = ',' ∨ c = '"' ∨ c = '\r' ∨ c = '\n'

def quote (cell : Cell) : List Char :=
  '"' :: (cell.flatMap fun c => if c = '"' then ['"', '"'] else [c]) ++ ['"']

/-- A cell of a row; `alone` if the row has no other.  An empty cell that is alone needs quotes, so that
the row is not an empty line. -/
def field (alone : Bool) (cell : Cell) : List Char :=
  if cell.any special ∨ (alone ∧ cell = []) then quote cell else cell

/-- A row without its end of line. -/
def line (row : List Cell) : List Char := [','].intercalate (row.map (field (row.length = 1)))

def writerow (row : List Cell) : List Char := line row ++ ['\r', '\n']

/-- A row is its first field and what comes after a comma. -/
theorem line_cons (cell : Cell) (cells : List Cell) :
    ∃ rest, line (cell :: cells) = field (cells = []) cell ++ rest ∧
      (cells = [] ∧ rest = [] ∨ ∃ rest', rest = ',' :: rest') := by
  cases cells with
  | nil => exact ⟨[], by simp [line], .inl ⟨rfl, rfl⟩⟩
  | cons cell' cells =>
      refine ⟨',' :: [','].intercalate ((cell' :: cells).map (field false)), ?_, .inr ⟨_, rfl⟩⟩
      simp [line, List.intercalate_cons_cons]

/-! ### Reading -/

inductive State
  | start_record
  | start_field
  | in_field
  | in_quoted_field
  | quote_in_quoted_field
  deriving DecidableEq, Repr

structure Reader where
  state : State
  field : Cell
  fields : List Cell
  rows : List (List Cell)
  deriving DecidableEq

namespace Reader

def start : Reader := ⟨.start_record, [], [], []⟩

def add (r : Reader) (c : Char) (state : State) : Reader := { r with state, field := r.field ++ [c] }

/-- The field is done. -/
def save (r : Reader) (state : State) : Reader :=
  { r with state, field := [], fields := r.fields ++ [r.field] }

def char (r : Reader) (c : Char) : Reader :=
  match r.state with
  | .start_record | .start_field =>
    if c = '"' then { r with state := .in_quoted_field }
    else if c = ',' then r.save .start_field
    else r.add c .in_field
  | .in_field => if c = ',' then r.save .start_field else r.add c .in_field
  | .in_quoted_field =>
    if c = '"' then { r with state := .quote_in_quoted_field } else r.add c .in_quoted_field
  | .quote_in_quoted_field =>
    if c = '"' then r.add c .in_quoted_field
    else if c = ',' then r.save .start_field
    else r.add c .in_field

/-- The row is done. -/
def emit (r : Reader) : Reader := ⟨.start_record, [], [], r.rows ++ [r.fields]⟩

/-- The end of a line.  An empty line is an empty row. -/
def eol (r : Reader) : Reader :=
  match r.state with
  | .start_record => r.emit
  | .start_field | .in_field | .quote_in_quoted_field => (r.save .start_record).emit
  | .in_quoted_field => r

def line (r : Reader) (l : List Char) : Reader := (l.foldl char r).eol

/-- The end of the lines, maybe inside quotes. -/
def finish (r : Reader) : List (List Cell) :=
  if r.state = .in_quoted_field then (r.save .start_record).emit.rows else r.rows

end Reader

def reader (lines : List (List Char)) : List (List Cell) := (lines.foldl Reader.line .start).finish

/-! ### What was written is read -/

section
variable {r : Reader} {cell : Cell}

/-- The characters between quotes. -/
theorem foldl_quoted (h : r.state = .in_quoted_field) (cell : Cell) :
    ((cell.flatMap fun c => if c = '"' then ['"', '"'] else [c]).foldl Reader.char r) =
      { r with field := r.field ++ cell } := by
  induction cell generalizing r with
  | nil => simp
  | cons c cell ih =>
      have hc : ((if c = '"' then ['"', '"'] else [c]).foldl Reader.char r) =
          r.add c .in_quoted_field := by
        by_cases hc : c = '"'
        · simp [hc, Reader.char, h, Reader.add]
        · simp [hc, Reader.char, h]
      rw [List.flatMap_cons, List.foldl_append, hc, ih rfl]
      simp [Reader.add, h]

/-- The characters of a cell that needs no quotes. -/
theorem foldl_unquoted (h : r.state = .in_field) (hcell : cell.all fun c => !special c) :
    cell.foldl Reader.char r = { r with field := r.field ++ cell } := by
  induction cell generalizing r with
  | nil => simp
  | cons c cell ih =>
      obtain ⟨hc, hcell⟩ : special c = false ∧ (cell.all fun c => !special c) := by
        simpa using hcell
      have hcomma : c ≠ ',' := by
        rintro rfl
        cases hc
      have hadd : r.char c = r.add c .in_field := by simp [Reader.char, h, hcomma]
      rw [List.foldl_cons, hadd, ih rfl hcell]
      simp [Reader.add, h]

/-- A field can start. -/
def Reader.Fresh (r : Reader) : Prop :=
  (r.state = .start_record ∨ r.state = .start_field) ∧ r.field = []

/-- The characters of a field are read. -/
def Reader.Has (r : Reader) (cell : Cell) (r' : Reader) : Prop :=
  r'.field = cell ∧ r'.fields = r.fields ∧ r'.rows = r.rows ∧
    (r'.state = .in_field ∨ r'.state = .quote_in_quoted_field ∨ cell = [] ∧ r'.state = r.state)

/-- **A field is read**, with quotes or without. -/
theorem has_field (h : r.Fresh) (alone : Bool) (cell : Cell) :
    r.Has cell ((field alone cell).foldl Reader.char r) ∧
      (alone → ((field alone cell).foldl Reader.char r).state ≠ .start_record) := by
  obtain ⟨hstate, hfield⟩ := h
  unfold field
  split_ifs with hquote
  · have hopen : r.char '"' = { r with state := .in_quoted_field } := by
      rcases hstate with hstate | hstate
      · simp [Reader.char, hstate]
      · simp [Reader.char, hstate]
    have hclose : (quote cell).foldl Reader.char r =
        { r with state := .quote_in_quoted_field, field := cell } := by
      rw [quote, List.cons_append, List.foldl_cons, List.foldl_append, hopen, foldl_quoted rfl]
      simp [Reader.char, hfield]
    rw [hclose]
    exact ⟨⟨rfl, rfl, rfl, .inr (.inl rfl)⟩, fun _ => nofun⟩
  · obtain ⟨hplain, halone⟩ := not_or.mp hquote
    cases cell with
    | nil =>
        refine ⟨⟨hfield, rfl, rfl, .inr (.inr ⟨rfl, rfl⟩)⟩, fun ha => ?_⟩
        exact absurd ⟨ha, rfl⟩ halone
    | cons c cell =>
        obtain ⟨hc, hcell⟩ : special c = false ∧ (cell.all fun c => !special c) := by
          simpa using hplain
        have hcomma : c ≠ ',' := by
          rintro rfl
          cases hc
        have hdquote : c ≠ '"' := by
          rintro rfl
          cases hc
        have hadd : r.char c = r.add c .in_field := by
          rcases hstate with hstate | hstate
          · simp [Reader.char, hstate, hcomma, hdquote]
          · simp [Reader.char, hstate, hcomma, hdquote]
        rw [List.foldl_cons, hadd, foldl_unquoted rfl hcell]
        exact ⟨⟨by simp [Reader.add, hfield], rfl, rfl, .inl rfl⟩, fun _ => nofun⟩

/-- The comma after a field. -/
theorem char_comma (h : r.Fresh) {r' : Reader} (hr : r.Has cell r') :
    r'.char ',' = ⟨.start_field, [], r.fields ++ [cell], r.rows⟩ := by
  obtain ⟨hfield, hfields, hrows, hstate⟩ := hr
  rcases hstate with hstate | hstate | ⟨-, hstate⟩
  · simp [Reader.char, hstate, Reader.save, hfield, hfields, hrows]
  · simp [Reader.char, hstate, Reader.save, hfield, hfields, hrows]
  · rcases h.1 with hstart | hstart
    · simp [Reader.char, hstate, hstart, Reader.save, hfield, hfields, hrows]
    · simp [Reader.char, hstate, hstart, Reader.save, hfield, hfields, hrows]

/-- The end of the line after a field. -/
theorem eol_field (h : r.Fresh) {r' : Reader} (hr : r.Has cell r') (hne : r'.state ≠ .start_record) :
    r'.eol = ⟨.start_record, [], [], r.rows ++ [r.fields ++ [cell]]⟩ := by
  obtain ⟨hfield, hfields, hrows, hstate⟩ := hr
  rcases hstate with hstate | hstate | ⟨-, hstate⟩
  · simp [Reader.eol, hstate, Reader.save, Reader.emit, hfield, hfields, hrows]
  · simp [Reader.eol, hstate, Reader.save, Reader.emit, hfield, hfields, hrows]
  · rcases h.1 with hstart | hstart
    · exact absurd (hstate.trans hstart) hne
    · simp [Reader.eol, hstate, hstart, Reader.save, Reader.emit, hfield, hfields, hrows]

/-- The fields of a row, from any of them on. -/
theorem line_fields (h : r.Fresh) {alone : Bool} {row : List Cell} (hne : row ≠ [])
    (halone : r.state = .start_record → row.length = 1 → alone) :
    r.line ([','].intercalate (row.map (field alone))) =
      ⟨.start_record, [], [], r.rows ++ [r.fields ++ row]⟩ := by
  induction row generalizing r with
  | nil => exact absurd rfl hne
  | cons cell row ih =>
      obtain ⟨hhas, hstart⟩ := has_field h alone cell
      cases row with
      | nil =>
          simp only [Reader.line, List.map_cons, List.map_nil, List.intercalate_singleton]
          refine eol_field h hhas fun hrecord => ?_
          obtain ⟨-, -, -, hstate | hstate | ⟨-, hstate⟩⟩ := hhas
          · cases hrecord.symm.trans hstate
          · cases hrecord.symm.trans hstate
          · exact hstart (halone (hstate.symm.trans hrecord) rfl) hrecord
      | cons cell' row =>
          have hrest : Reader.Fresh ⟨.start_field, [], r.fields ++ [cell], r.rows⟩ := ⟨.inr rfl, rfl⟩
          have hline := ih hrest (by simp) nofun
          simp only [Reader.line, List.map_cons, List.intercalate_cons_cons] at hline ⊢
          rw [List.append_assoc, List.foldl_append, List.singleton_append, List.foldl_cons,
            char_comma h hhas, hline]
          simp

/-- **A row is read.** -/
theorem read_row {rows : List (List Cell)} {row : List Cell} (h : row ≠ []) :
    Reader.line ⟨.start_record, [], [], rows⟩ (line row) =
      ⟨.start_record, [], [], rows ++ [row]⟩ := by
  unfold line
  rw [line_fields ⟨.inl rfl, rfl⟩ h fun _ hone => decide_eq_true hone]
  simp

/-- **All rows are read.** -/
theorem reader_rows {rows : List (List Cell)} (h : ∀ row ∈ rows, row ≠ []) :
    reader (rows.map line) = rows := by
  have hfold (before rows : List (List Cell)) (h : ∀ row ∈ rows, row ≠ []) :
      (rows.map line).foldl Reader.line ⟨.start_record, [], [], before⟩ =
        ⟨.start_record, [], [], before ++ rows⟩ := by
    induction rows generalizing before with
    | nil => simp
    | cons row rows ih =>
        obtain ⟨hrow, hrows⟩ := List.forall_mem_cons.mp h
        rw [List.map_cons, List.foldl_cons, read_row hrow, ih (before ++ [row]) hrows]
        simp
  have hall := hfold [] rows h
  rw [List.nil_append] at hall
  rw [reader, Reader.start, hall]
  rfl

end

/-! ### Nothing is made up -/

section
variable {p : Char → Bool} {r : Reader}

/-- The characters that a reader holds. -/
def Reader.held (r : Reader) : List Char := r.rows.flatten.flatten ++ r.fields.flatten ++ r.field

theorem countP_add (c : Char) (state : State) :
    (r.add c state).held.countP p = r.held.countP p + if p c then 1 else 0 := by
  simp only [Reader.held, Reader.add, List.countP_append, List.countP_singleton]
  omega

theorem countP_save (state : State) : (r.save state).held.countP p = r.held.countP p := by
  simp only [Reader.held, Reader.save, List.flatten_append, List.flatten_singleton, List.countP_append,
    List.countP_nil]
  omega

theorem countP_emit : r.emit.held.countP p ≤ r.held.countP p := by
  simp [Reader.held, Reader.emit]

/-- What a character does: it changes the state, ends the field, or belongs to it. -/
theorem char_cases (r : Reader) (c : Char) :
    ∃ state, r.char c = { r with state } ∨ r.char c = r.save state ∨ r.char c = r.add c state := by
  unfold Reader.char
  split
  · split_ifs
    · exact ⟨_, .inl rfl⟩
    · exact ⟨_, .inr (.inl rfl)⟩
    · exact ⟨_, .inr (.inr rfl)⟩
  · split_ifs
    · exact ⟨_, .inl rfl⟩
    · exact ⟨_, .inr (.inl rfl)⟩
    · exact ⟨_, .inr (.inr rfl)⟩
  · split_ifs
    · exact ⟨_, .inr (.inl rfl)⟩
    · exact ⟨_, .inr (.inr rfl)⟩
  · split_ifs
    · exact ⟨_, .inl rfl⟩
    · exact ⟨_, .inr (.inr rfl)⟩
  · split_ifs
    · exact ⟨_, .inr (.inr rfl)⟩
    · exact ⟨_, .inr (.inl rfl)⟩
    · exact ⟨_, .inr (.inr rfl)⟩

theorem countP_char (c : Char) :
    (r.char c).held.countP p ≤ r.held.countP p + if p c then 1 else 0 := by
  obtain ⟨state, h | h | h⟩ := char_cases r c
  · rw [h]
    exact Nat.le_add_right _ _
  · rw [h, countP_save]
    exact Nat.le_add_right _ _
  · rw [h, countP_add]

theorem countP_foldl (l : List Char) :
    (l.foldl Reader.char r).held.countP p ≤ r.held.countP p + l.countP p := by
  induction l generalizing r with
  | nil => exact le_rfl
  | cons c l ih =>
      have hchar := countP_char (p := p) (r := r) c
      have hrest := ih (r := r.char c)
      rw [List.foldl_cons, List.countP_cons]
      omega

theorem countP_eol : r.eol.held.countP p ≤ r.held.countP p := by
  unfold Reader.eol
  split
  · exact countP_emit
  · exact countP_emit.trans (countP_save _).le
  · exact countP_emit.trans (countP_save _).le
  · exact countP_emit.trans (countP_save _).le
  · exact le_rfl

/-- **The reader makes up no characters.** -/
theorem countP_reader (lines : List (List Char)) :
    (reader lines).flatten.flatten.countP p ≤ lines.flatten.countP p := by
  have hfold (lines : List (List Char)) (r : Reader) :
      (lines.foldl Reader.line r).held.countP p ≤ r.held.countP p + lines.flatten.countP p := by
    induction lines generalizing r with
    | nil => exact le_rfl
    | cons l lines ih =>
        have hline : (r.line l).held.countP p ≤ r.held.countP p + l.countP p :=
          countP_eol.trans (countP_foldl l)
        have hrest := ih (r.line l)
        rw [List.foldl_cons, List.flatten_cons, List.countP_append]
        omega
  have hfinish (r : Reader) : r.finish.flatten.flatten.countP p ≤ r.held.countP p := by
    unfold Reader.finish
    split_ifs
    · have hemit := (countP_emit (p := p)).trans (countP_save (r := r) .start_record).le
      simpa [Reader.held, Reader.emit] using hemit
    · simp [Reader.held]
  have hall := hfold lines .start
  have hstart : Reader.start.held = [] := rfl
  rw [hstart, List.countP_nil, Nat.zero_add] at hall
  exact (hfinish _).trans hall

/-- The writer adds commas and quotes, and loses nothing. -/
theorem countP_line (hcomma : p ',' = false) (hquote : p '"' = false) (row : List Cell) :
    (line row).countP p = row.flatten.countP p := by
  have hdouble (cell : Cell) :
      (cell.flatMap fun c => if c = '"' then ['"', '"'] else [c]).countP p = cell.countP p := by
    induction cell with
    | nil => rfl
    | cons c cell ih =>
        rw [List.flatMap_cons, List.countP_append, ih, List.countP_cons]
        by_cases hc : c = '"'
        · simp [hc, hquote]
        · simp [hc, List.countP_singleton, Nat.add_comm]
  have hfield (alone : Bool) (cell : Cell) : (field alone cell).countP p = cell.countP p := by
    unfold field
    split_ifs
    · simp [quote, hquote, hdouble]
    · rfl
  have hfields (alone : Bool) (row : List Cell) :
      ([','].intercalate (row.map (field alone))).countP p = row.flatten.countP p := by
    induction row with
    | nil => rfl
    | cons cell row ih =>
        cases row with
        | nil => simp [hfield]
        | cons cell' row =>
            simp only [List.map_cons, List.intercalate_cons_cons] at ih ⊢
            simp [List.countP_append, hcomma, hfield, ih]
  exact hfields _ row

end

end InfraHub.Lib.Csv
