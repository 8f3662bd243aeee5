import Anna.LoadCsv
import Mathlib.Data.List.Forall2

/-!
# What is loaded

A table can be written in many ways: numbers with leading zeros, empty lines
between the rows, a newline at the end or none. Whichever is chosen, `LoadCSV`
appends the rows of the first `max_row` lines, cut to `max_col` entries. As
the empty lines are counted too, these are the first `max_row` rows only if
enough of them stand in these lines.
-/

namespace Anna

/-! ## The loops -/

def parse (unset : UInt64) (value : List Char) : UInt64 := (extract value).getD unset

def nonEmpty (l : List Char) : Bool := !l.isEmpty

theorem nonEmpty_iff {l : List Char} : nonEmpty l = true ↔ l ≠ [] := by
  rw [nonEmpty, Bool.not_eq_true', List.isEmpty_eq_false_iff]

theorem filter_nonEmpty_cons_nil (ls : List (List Char)) : ([] :: ls).filter nonEmpty = ls.filter nonEmpty := rfl

section
variable {unset : UInt64} {maxRow maxCol : Int32}

theorem readRow_eq (hcol : 1 ≤ maxCol.toInt) (values : List (List Char)) (row : List UInt64)
    (hrow : row.length < maxCol.toInt.toNat) : readRow unset maxCol values row =
      row ++ ((values.filter nonEmpty).map (parse unset)).take (maxCol.toInt.toNat - row.length) := by
  have hne : maxCol ≠ -1 := by
    intro h
    rw [h] at hcol
    exact absurd hcol (by decide)
  induction values generalizing row with
  | nil => rw [readRow, List.filter_nil, List.map_nil, List.take_nil, List.append_nil]
  | cons value values ih =>
    rw [readRow]
    by_cases hvalue : value = []
    · subst hvalue
      rw [if_pos rfl, ih row hrow, filter_nonEmpty_cons_nil]
    · rw [if_neg hvalue, List.filter_cons_of_pos (nonEmpty_iff.mpr hvalue), List.map_cons]
      have hlen : (row ++ [parse unset value]).length = row.length + 1 := by
        rw [List.length_append, List.length_singleton]
      show (if maxCol ≠ -1 ∧ (row ++ [parse unset value]).length = (uint64OfInt maxCol).toNat then
        row ++ [parse unset value] else readRow unset maxCol values (row ++ [parse unset value])) = _
      rw [toNat_uint64OfInt (by omega), hlen]
      by_cases hfull : row.length + 1 = maxCol.toInt.toNat
      · have hone : maxCol.toInt.toNat - row.length = 1 := by omega
        rw [if_pos ⟨hne, hfull⟩, hone, List.take_succ_cons, List.take_zero]
      · have hmore : maxCol.toInt.toNat - row.length = maxCol.toInt.toNat - (row.length + 1) + 1 := by omega
        rw [if_neg fun h => hfull h.2, ih _ (by rw [hlen]; omega), hlen, hmore, List.take_succ_cons,
          List.append_assoc, List.singleton_append]

theorem readRows_eq (lines : List (List Char)) (rowCnt : Int) (matrix : List (List UInt64)) :
    readRows unset maxRow maxCol lines rowCnt matrix = matrix ++
      ((lines.take (maxRow.toInt - rowCnt).toNat).filter nonEmpty).map fun line =>
        readRow unset maxCol (records ',' line) [] := by
  induction lines generalizing rowCnt matrix with
  | nil => rw [readRows, List.take_nil, List.filter_nil, List.map_nil, List.append_nil]
  | cons line lines ih =>
    rw [readRows]
    by_cases hlt : rowCnt < maxRow.toInt
    · have hsucc : (maxRow.toInt - rowCnt).toNat = (maxRow.toInt - (rowCnt + 1)).toNat + 1 := by omega
      rw [if_pos hlt, hsucc, List.take_succ_cons]
      by_cases hline : line = []
      · subst hline
        rw [if_pos rfl, ih, filter_nonEmpty_cons_nil]
      · rw [if_neg hline, ih, List.filter_cons_of_pos (nonEmpty_iff.mpr hline), List.map_cons, List.append_assoc,
          List.singleton_append]
    · have hzero : (maxRow.toInt - rowCnt).toNat = 0 := by omega
      rw [if_neg hlt, hzero, List.take_zero, List.filter_nil, List.map_nil, List.append_nil]

end

/-! ## Writing a table -/

/-- The decimal numerals of a number: one without leading zeros, and all others. -/
structure Numeral (x : UInt64) (digits : List Char) : Prop where
  ne : digits ≠ []
  isDigit : ∀ c ∈ digits, c.isDigit = true
  value : Nat.ofDigitChars 10 digits 0 = x.toNat

/-- A row as it is written, with the empty lines before it. -/
structure CsvRow where
  emptyLines : Nat
  numerals : List (List Char)

namespace CsvRow

def Writes (r : CsvRow) (row : List UInt64) : Prop := List.Forall₂ Numeral row r.numerals

def line (r : CsvRow) : List Char := [','].intercalate r.numerals

def lines (rows : List CsvRow) : List (List Char) :=
  rows.flatMap fun r => List.replicate r.emptyLines [] ++ [r.line]

def text (rows : List CsvRow) (finalNewline : Bool) : List Char :=
  ['\n'].intercalate (lines rows) ++ if finalNewline then ['\n'] else []

/-- The lines that the first `k` rows take, with the empty ones before them. -/
def linesUpTo (rows : List CsvRow) (k : Nat) : Nat := ((rows.take k).map fun r => r.emptyLines + 1).sum

end CsvRow

theorem digit_ne {c d : Char} (h : c.isDigit = true) (hd : d.isDigit = false) : c ≠ d := by
  rintro rfl
  rw [h] at hd
  cases hd

theorem extract_numeral {x : UInt64} {digits : List Char} (h : Numeral x digits) : extract digits = some x := by
  obtain ⟨c, cs, rfl⟩ := List.exists_cons_of_ne_nil h.ne
  have hc := h.isDigit c List.mem_cons_self
  have hspace : isSpace c = false := by
    rw [isSpace, decide_eq_false_iff_not]
    simp only [List.mem_cons, List.not_mem_nil, or_false, not_or]
    refine ⟨?_, ?_, ?_, ?_, ?_, ?_⟩ <;> exact digit_ne hc (by decide)
  have hread : readDigits false (c :: cs) = x := by
    have hall : (c :: cs).takeWhile Char.isDigit = c :: cs := List.takeWhile_eq_self_iff.mpr h.isDigit
    have hlt := x.toNat_lt
    simp only [readDigits, hall, h.value]
    rw [if_neg (by omega), if_neg Bool.false_ne_true, UInt64.ofNat_toNat]
  have hstart : (c :: cs).dropWhile isSpace = c :: cs := by
    apply List.dropWhile_cons_of_neg
    rw [hspace]
    exact Bool.false_ne_true
  unfold extract
  rw [hstart]
  split
  · rename_i heq
    cases heq
  · rename_i heq
    exact absurd (List.cons.inj heq).1 (digit_ne hc (by decide))
  · rename_i heq
    exact absurd (List.cons.inj heq).1 (digit_ne hc (by decide))
  · rw [hread]

theorem Numeral.not_mem {x : UInt64} {digits : List Char} (h : Numeral x digits) {d : Char} (hd : d.isDigit = false) :
    d ∉ digits := fun hmem => digit_ne (h.isDigit d hmem) hd rfl

theorem numerals_parse {row : List UInt64} {numerals : List (List Char)} (h : List.Forall₂ Numeral row numerals)
    (unset : UInt64) : numerals.map (parse unset) = row := by
  induction h with
  | nil => rfl
  | cons hx _ ih => rw [List.map_cons, ih, parse, extract_numeral hx, Option.getD_some]

theorem exists_forall₂ {α β : Type} {R : α → β → Prop} {as : List α} {bs : List β} (h : List.Forall₂ R as bs) {b : β}
    (hb : b ∈ bs) : ∃ a ∈ as, R a b := by
  induction h with
  | nil => cases hb
  | @cons a _ _ _ hab _ ih =>
    rcases List.mem_cons.mp hb with rfl | hb
    · exact ⟨a, List.mem_cons_self, hab⟩
    · obtain ⟨a', ha', hab'⟩ := ih hb
      exact ⟨a', List.mem_cons_of_mem _ ha', hab'⟩

namespace CsvRow

section
variable {r : CsvRow} {row : List UInt64}

theorem Writes.numerals_ne (h : r.Writes row) (hrow : row ≠ []) : r.numerals ≠ [] := by
  intro hnil
  have hlen := List.Forall₂.length_eq h
  rw [hnil, List.length_nil] at hlen
  exact hrow (List.eq_nil_of_length_eq_zero hlen)

theorem Writes.not_mem_line (h : r.Writes row) {d : Char} (hd : d.isDigit = false) (hcomma : d ≠ ',') :
    d ∉ r.line := by
  have hall : ∀ numerals : List (List Char), (∀ digits ∈ numerals, d ∉ digits) → d ∉ [','].intercalate numerals := by
    intro numerals
    induction numerals with
    | nil => exact fun _ => List.not_mem_nil
    | cons digits numerals ih =>
      intro hnot hmem
      cases numerals with
      | nil =>
        rw [List.intercalate_singleton] at hmem
        exact hnot digits List.mem_cons_self hmem
      | cons next numerals =>
        rw [List.intercalate_cons_cons, List.append_assoc, List.mem_append, List.singleton_append,
          List.mem_cons] at hmem
        rcases hmem with hmem | hmem | hmem
        · exact hnot digits List.mem_cons_self hmem
        · exact hcomma hmem
        · exact ih (fun l hl => hnot l (List.mem_cons_of_mem _ hl)) hmem
  apply hall
  intro digits hdigits
  obtain ⟨x, -, hx⟩ := exists_forall₂ h hdigits
  exact hx.not_mem hd

theorem Writes.splitOn_line (h : r.Writes row) (hrow : row ≠ []) : r.line.splitOn ',' = r.numerals := by
  apply List.splitOn_intercalate _ _ (h.numerals_ne hrow)
  intro digits hdigits
  obtain ⟨x, -, hx⟩ := exists_forall₂ h hdigits
  exact hx.not_mem (by decide)

theorem Writes.line_ne (h : r.Writes row) (hrow : row ≠ []) : r.line ≠ [] := by
  intro hnil
  have hsplit := h.splitOn_line hrow
  rw [hnil, List.splitOn_nil] at hsplit
  obtain ⟨x, -, hx⟩ := exists_forall₂ h (hsplit ▸ List.mem_singleton_self [])
  exact hx.ne rfl

/-- A line that is written for a row is read as the row. -/
theorem Writes.readRow (h : r.Writes row) (hrow : row ≠ []) (unset : UInt64) {maxCol : Int32}
    (hcol : 1 ≤ maxCol.toInt) :
    Anna.readRow unset maxCol (records ',' r.line) [] = row.take maxCol.toInt.toNat := by
  have hall : r.numerals.filter nonEmpty = r.numerals := by
    rw [List.filter_eq_self]
    intro digits hdigits
    obtain ⟨x, -, hx⟩ := exists_forall₂ h hdigits
    exact nonEmpty_iff.mpr hx.ne
  rw [readRow_eq hcol _ _ (by rw [List.length_nil]; omega), filter_records rfl, h.splitOn_line hrow, hall,
    numerals_parse h, List.nil_append, List.length_nil, Nat.sub_zero]

end

/-! ## Lines and rows -/

/-- How many rows stand in the first `n` lines. -/
def rowsWithin : Nat → List CsvRow → Nat
  | _, [] => 0
  | n, r :: rows => if r.emptyLines < n then rowsWithin (n - (r.emptyLines + 1)) rows + 1 else 0

section
variable {rows : List CsvRow}

theorem rowsWithin_le (n : Nat) (rows : List CsvRow) : rowsWithin n rows ≤ n ∧ rowsWithin n rows ≤ rows.length := by
  induction rows generalizing n with
  | nil => exact ⟨Nat.zero_le _, Nat.le_refl _⟩
  | cons r rows ih =>
    rw [rowsWithin, List.length_cons]
    by_cases hlt : r.emptyLines < n
    · have := ih (n - (r.emptyLines + 1))
      rw [if_pos hlt]
      omega
    · rw [if_neg hlt]
      omega

theorem linesUpTo_succ (r : CsvRow) (rows : List CsvRow) (k : Nat) :
    linesUpTo (r :: rows) (k + 1) = r.emptyLines + 1 + linesUpTo rows k := by
  rw [linesUpTo, List.take_succ_cons, List.map_cons, List.sum_cons, linesUpTo]

theorem le_rowsWithin_iff {k n : Nat} (hk : k ≤ rows.length) : k ≤ rowsWithin n rows ↔ linesUpTo rows k ≤ n := by
  induction rows generalizing k n with
  | nil =>
    obtain rfl : k = 0 := Nat.le_zero.mp hk
    exact ⟨fun _ => Nat.zero_le _, fun _ => Nat.zero_le _⟩
  | cons r rows ih =>
    cases k with
    | zero => exact ⟨fun _ => Nat.zero_le _, fun _ => Nat.zero_le _⟩
    | succ k =>
      rw [linesUpTo_succ, rowsWithin]
      by_cases hlt : r.emptyLines < n
      · have hiff := ih (n := n - (r.emptyLines + 1)) (Nat.le_of_succ_le_succ hk)
        rw [if_pos hlt, Nat.succ_le_succ_iff, hiff]
        omega
      · rw [if_neg hlt]
        omega

theorem filter_take_lines (hline : ∀ r ∈ rows, r.line ≠ []) (n : Nat) :
    ((lines rows).take n).filter nonEmpty = (rows.take (rowsWithin n rows)).map line := by
  have hempty : ∀ k, (List.replicate k ([] : List Char)).filter nonEmpty = [] := by
    intro k
    induction k with
    | zero => rfl
    | succ k ih => rw [List.replicate_succ, filter_nonEmpty_cons_nil, ih]
  induction rows generalizing n with
  | nil => rw [lines, List.flatMap_nil, List.take_nil, List.take_nil, List.filter_nil, List.map_nil]
  | cons r rows ih =>
    have hcons : lines (r :: rows) = List.replicate r.emptyLines [] ++ r.line :: lines rows := by
      rw [lines, List.flatMap_cons, List.append_assoc, List.singleton_append, lines]
    rw [hcons, List.take_append, List.length_replicate, List.filter_append, List.take_replicate, hempty, rowsWithin,
      List.nil_append]
    by_cases hlt : r.emptyLines < n
    · have hsucc : n - r.emptyLines = n - (r.emptyLines + 1) + 1 := by omega
      rw [if_pos hlt, hsucc, List.take_succ_cons, List.take_succ_cons, List.map_cons,
        List.filter_cons_of_pos (nonEmpty_iff.mpr (hline r List.mem_cons_self)),
        ih fun r' hr' => hline r' (List.mem_cons_of_mem _ hr')]
    · have hzero : n - r.emptyLines = 0 := by omega
      rw [if_neg hlt, hzero, List.take_zero, List.take_zero, List.filter_nil, List.map_nil]

theorem splitOn_text (hline : ∀ r ∈ rows, '\n' ∉ r.line) (finalNewline : Bool) :
    ∃ tail, (∀ t ∈ tail, t = []) ∧ (text rows finalNewline).splitOn '\n' = lines rows ++ tail := by
  have hnot : ∀ l ∈ lines rows, '\n' ∉ l := by
    intro l hl
    obtain ⟨r, hr, hl⟩ := List.mem_flatMap.mp hl
    rcases List.mem_append.mp hl with hl | hl
    · rw [List.eq_of_mem_replicate hl]
      exact List.not_mem_nil
    · rw [List.mem_singleton.mp hl]
      exact hline r hr
  have hjoin : ∃ tail, (∀ t ∈ tail, t = []) ∧ (['\n'].intercalate (lines rows)).splitOn '\n' = lines rows ++ tail := by
    by_cases hnil : lines rows = []
    · refine ⟨[[]], fun t ht => List.mem_singleton.mp ht, ?_⟩
      rw [hnil, List.intercalate_nil, List.splitOn_nil, List.nil_append]
    · refine ⟨[], fun t ht => absurd ht List.not_mem_nil, ?_⟩
      rw [List.splitOn_intercalate _ hnot hnil, List.append_nil]
  obtain ⟨tail, htail, heq⟩ := hjoin
  cases finalNewline with
  | false =>
    refine ⟨tail, htail, ?_⟩
    rw [text, if_neg Bool.false_ne_true, List.append_nil, heq]
  | true =>
    refine ⟨tail ++ [[]], ?_, ?_⟩
    · intro t ht
      rcases List.mem_append.mp ht with ht | ht
      · exact htail t ht
      · exact List.mem_singleton.mp ht
    · rw [text, if_pos rfl, List.splitOn_append_cons_self, heq, List.splitOn_nil, List.append_assoc]

end

end CsvRow

/-! ## The rows that are loaded -/

section
variable {rows : List CsvRow} {matrix : List (List UInt64)}

theorem loadCSV_eq (unset : UInt64) (hne : ∀ row ∈ matrix, row ≠ []) (hrows : List.Forall₂ CsvRow.Writes rows matrix)
    (finalNewline : Bool) (before : List (List UInt64)) (maxRow : Int32) {maxCol : Int32} (hcol : 1 ≤ maxCol.toInt) :
    loadCSV unset (CsvRow.text rows finalNewline) before maxRow maxCol = before ++
      (matrix.take (CsvRow.rowsWithin maxRow.toInt.toNat rows)).map (List.take maxCol.toInt.toNat) := by
  have hwrites : ∀ r ∈ rows, ∃ row, row ≠ [] ∧ r.Writes row := by
    intro r hr
    obtain ⟨row, hrow, hw⟩ := exists_forall₂ hrows.flip hr
    exact ⟨row, hne row hrow, hw⟩
  have hline : ∀ r ∈ rows, r.line ≠ [] := by
    intro r hr
    obtain ⟨row, hrow, hw⟩ := hwrites r hr
    exact hw.line_ne hrow
  have hbreak : ∀ r ∈ rows, '\n' ∉ r.line := by
    intro r hr
    obtain ⟨row, -, hw⟩ := hwrites r hr
    exact hw.not_mem_line (by decide) (by decide)
  have hread : ∀ {rows : List CsvRow} {matrix : List (List UInt64)}, (∀ row ∈ matrix, row ≠ []) →
      List.Forall₂ CsvRow.Writes rows matrix →
      (rows.map fun r => readRow unset maxCol (records ',' r.line) []) =
        matrix.map (List.take maxCol.toInt.toNat) := by
    intro rows matrix hne h
    induction h with
    | nil => rfl
    | cons hw _ ih =>
      rw [List.map_cons, List.map_cons, hw.readRow (hne _ List.mem_cons_self) unset hcol,
        ih fun row hrow => hne row (List.mem_cons_of_mem _ hrow)]
  obtain ⟨tail, htail, hsplit⟩ := CsvRow.splitOn_text hbreak finalNewline
  rw [loadCSV, readRows_eq, filter_take_records rfl, hsplit, filter_take_append rfl htail, Int.sub_zero,
    CsvRow.filter_take_lines hline, List.map_map]
  exact congrArg (before ++ ·) (hread (fun row hrow => hne row (List.mem_of_mem_take hrow)) (List.forall₂_take _ hrows))

/-- The rows of the first `n` lines are the first `k` rows if these fit into the lines. -/
theorem take_rowsWithin_iff (hlen : rows.length = matrix.length) {n k : Nat} (hnk : n ≤ k) (maxCol : Nat)
    (before : List (List UInt64)) :
    before ++ (matrix.take (CsvRow.rowsWithin n rows)).map (List.take maxCol) =
        before ++ (matrix.take k).map (List.take maxCol) ↔
      CsvRow.linesUpTo rows (min k matrix.length) ≤ n := by
  obtain ⟨hle, hlength⟩ := CsvRow.rowsWithin_le n rows
  rw [← CsvRow.le_rowsWithin_iff (by omega), List.append_cancel_left_eq]
  constructor
  · intro h
    have hcount := congrArg List.length h
    simp only [List.length_map, List.length_take] at hcount
    omega
  · intro h
    have htake : matrix.take (CsvRow.rowsWithin n rows) = matrix.take k := by
      rw [List.take_eq_take_iff]
      omega
    rw [htake]

end

/-- `LoadCSV` appends the first `max_row` rows if they and the empty lines before them are at most `max_row` lines, and
not otherwise; of the number of queries the same holds after its conversion to `int`. -/
theorem loadCSV_rows_iff (unset : UInt64) (matrix : List (List UInt64)) (rows : List CsvRow) (finalNewline : Bool)
    (hne : ∀ row ∈ matrix, row ≠ []) (hrows : List.Forall₂ CsvRow.Writes rows matrix) :
    (∀ (before : List (List UInt64)) (maxRow maxCol : Int32), 0 ≤ maxRow.toInt → 1 ≤ maxCol.toInt →
      (loadCSV unset (CsvRow.text rows finalNewline) before maxRow maxCol =
          before ++ (matrix.take maxRow.toInt.toNat).map (List.take maxCol.toInt.toNat) ↔
        CsvRow.linesUpTo rows (min maxRow.toInt.toNat matrix.length) ≤ maxRow.toInt.toNat)) ∧
      ∀ (files : String → List Char) (databaseName : String) (queryNum : UInt64),
        files (queriesPath databaseName) = CsvRow.text rows finalNewline →
        (prepareQueries unset files databaseName [] queryNum =
            (matrix.take queryNum.toNat).map (List.take nprobe.toNat) ↔
          CsvRow.linesUpTo rows (min queryNum.toNat matrix.length) ≤ (intOfUint64 queryNum).toInt.toNat) := by
  have hlen := hrows.length_eq
  refine ⟨?_, ?_⟩
  · intro before maxRow maxCol _ hcol
    rw [loadCSV_eq unset hne hrows finalNewline before maxRow hcol]
    exact take_rowsWithin_iff hlen (Nat.le_refl _) _ before
  · intro files databaseName queryNum hfile
    have hcol : (intOfUint64 nprobe).toInt.toNat = nprobe.toNat := by decide
    have hcut : (intOfUint64 queryNum).toInt.toNat ≤ queryNum.toNat := by
      have := toInt_intOfUint64_le queryNum
      omega
    rw [prepareQueries, hfile, loadCSV_eq unset hne hrows finalNewline [] _ (by decide), hcol]
    exact take_rowsWithin_iff hlen hcut _ []

/-- Two rows with an empty line between them. -/
def apart : List CsvRow := [⟨0, [['1']]⟩, ⟨1, [['2']]⟩]

theorem writes_apart : List.Forall₂ CsvRow.Writes apart [[1], [2]] := by
  have hone : Numeral 1 ['1'] := ⟨by decide, List.all_eq_true.mp (by decide), by decide⟩
  have htwo : Numeral 2 ['2'] := ⟨by decide, List.all_eq_true.mp (by decide), by decide⟩
  exact .cons (.cons hone .nil) (.cons (.cons htwo .nil) .nil)

theorem loadCSV_apart : loadCSV 0 ['1', '\n', '\n', '2', '\n'] [] 3 1 = [[1], [2]] ∧
    prepareQueries 0 (fun _ => ['1', '\n', '\n', '2', '\n']) "deep1B" [] 3 = [[1], [2]] := by
  obtain ⟨hload, hqueries⟩ := loadCSV_rows_iff 0 [[1], [2]] apart true (by decide) writes_apart
  exact ⟨(hload [] 3 1 (by decide) (by decide)).mpr (by decide),
    (hqueries (fun _ => CsvRow.text apart true) "deep1B" 3 rfl).mpr (by decide)⟩

/-- Of two rows that stand in three lines only one is loaded. -/
theorem empty_line_counted : CsvRow.text apart true = ['1', '\n', '\n', '2', '\n'] ∧
    List.Forall₂ CsvRow.Writes apart [[1], [2]] ∧
    loadCSV 0 ['1', '\n', '\n', '2', '\n'] [] 2 1 = [[1]] ∧
    loadCSV 0 ['1', '\n', '\n', '2', '\n'] [] 2 1 ≠ ([[1], [2]].take 2).map (List.take 1) ∧
    prepareQueries 0 (fun _ => ['1', '\n', '\n', '2', '\n']) "deep1B" [] 2 = [[1]] := by
  have hload : loadCSV 0 (CsvRow.text apart true) [] 2 1 = [[1]] :=
    loadCSV_eq 0 (by decide) writes_apart true [] 2 (by decide)
  have hqueries : prepareQueries 0 (fun _ => CsvRow.text apart true) "deep1B" [] 2 = [[1]] :=
    loadCSV_eq 0 (by decide) writes_apart true [] _ (by decide)
  refine ⟨rfl, writes_apart, hload, ?_, hqueries⟩
  show loadCSV 0 (CsvRow.text apart true) [] 2 1 ≠ _
  rw [hload]
  decide

end Anna
