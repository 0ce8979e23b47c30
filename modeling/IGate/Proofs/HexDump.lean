import IGate.HexDump
import IGate.Proofs.Framing

/-! A dump can be read back. The offset of a row stands before its first colon and the cells before
its first star, so a byte that shows as one of them is not taken for the end of a column. -/

namespace IGate.HexDump

/-! Reading a row -/

def digit? (c : Char) : Option Nat :=
  if '0' ≤ c ∧ c ≤ '9' then some (c.toNat - '0'.toNat)
  else if 'A' ≤ c ∧ c ≤ 'F' then some (10 + (c.toNat - 'A'.toNat))
  else none

def valueFrom? (n : Nat) (cs : List Char) : Option Nat :=
  cs.foldlM (fun n c => (digit? c).map (16 * n + ·)) n

def number? (cs : List Char) : Option Nat := if cs = [] then none else valueFrom? 0 cs

/-- What stands behind the first colon and the two spaces after it. -/
def behindOffset (row : List Char) : List Char := (row.dropWhile (· != ':')).drop 3

/-- Reads cells of three characters each, up to the first blank one and `most` of them at most. -/
def cells? : Nat → List Char → Option Bytes
  | 0, _ => some []
  | most + 1, x :: y :: z :: rest =>
    if x = ' ' ∧ y = ' ' ∧ z = ' ' then some []
    else if z = ' ' then do
      let n ← number? [x, y]
      let bytes ← cells? most rest
      some (UInt8.ofNat n :: bytes)
    else none
  | _ + 1, _ => none

def rowBytes? (row : List Char) : Option Bytes := cells? 16 (behindOffset row)

def readBack? (rows : List String) : Option Bytes :=
  (rows.mapM fun row => rowBytes? row.toList).map List.flatten

theorem readBack?_cons (row : String) (rows : List String) :
    readBack? (row :: rows) =
      (rowBytes? row.toList).bind fun bytes => (readBack? rows).map (bytes ++ ·) := by
  unfold readBack?
  rw [List.mapM_cons]
  cases rowBytes? row.toList with
  | none => rfl
  | some bytes => cases rows.mapM fun row => rowBytes? row.toList <;> rfl

/-- A byte that is a character in print shows as itself, and any other as a dot. -/
def ShownAs (b : UInt8) (c : Char) : Prop :=
  if 0x20 ≤ b.toNat ∧ b.toNat ≤ 0x7e then c.toNat = b.toNat else c = '.'

/-- A row shows some bytes and the offset of the first of them. -/
structure Shows (row : List Char) (offset : Nat) (bytes : Bytes) : Prop where
  offset_read : number? (row.takeWhile (· != ':')) = some offset
  spaced : [':', ' ', ' '] <+: row.dropWhile (· != ':')
  bytes_read : rowBytes? row = some bytes
  width : ∃ cells, (behindOffset row).takeWhile (· != '*') = cells ++ [' ', ' ', ' '] ∧
    cells.length = 16 * 3
  shown : ∃ glyphs, (behindOffset row).dropWhile (· != '*') = '*' :: glyphs ++ ['*'] ∧
    List.Forall₂ ShownAs bytes glyphs

/-! Digits -/

theorem digit?_toUpper_digitChar {d : Nat} (h : d < 16) :
    digit? (Nat.digitChar d).toUpper = some d := by
  interval_cases d <;> decide

theorem valueFrom?_append (n : Nat) (cs ds : List Char) :
    valueFrom? n (cs ++ ds) = (valueFrom? n cs).bind fun m => valueFrom? m ds :=
  List.foldlM_append

theorem valueFrom?_singleton (n : Nat) (c : Char) :
    valueFrom? n [c] = (digit? c).map (16 * n + ·) := by
  simp [valueFrom?]

theorem valueFrom?_zeros (k : Nat) : valueFrom? 0 (List.replicate k '0') = some 0 := by
  induction k with
  | zero => rfl
  | succ k ih =>
    rw [List.replicate_succ', valueFrom?_append, ih]
    rfl

/-- The last digit is the remainder, and those before it are the digits of the quotient. -/
theorem valueFrom?_toDigits (n : Nat) :
    valueFrom? 0 ((Nat.toDigits 16 n).map Char.toUpper) = some n := by
  induction n using Nat.strong_induction_on with
  | _ n ih =>
    rcases lt_or_ge n 16 with hlow | hhigh
    · rw [Nat.toDigits_of_lt_base hlow, List.map_singleton, valueFrom?_singleton,
        digit?_toUpper_digitChar hlow]
      simp
    · have hrest : n / 16 < n := by omega
      have hlast : n % 16 < 16 := by omega
      rw [Nat.toDigits_of_base_le (by decide) hhigh, List.map_append, valueFrom?_append,
        ih _ hrest, List.map_singleton, Option.bind_some, valueFrom?_singleton,
        digit?_toUpper_digitChar hlast, Option.map_some, Nat.div_add_mod]

theorem digit?_isSome_of_mem {c : Char} {cs : List Char} {n m : Nat}
    (h : valueFrom? n cs = some m) (hc : c ∈ cs) : (digit? c).isSome := by
  obtain ⟨before, after, rfl⟩ := List.append_of_mem hc
  rw [List.append_cons, valueFrom?_append, valueFrom?_append] at h
  obtain ⟨k, hk, -⟩ := Option.bind_eq_some_iff.1 h
  obtain ⟨j, -, hj⟩ := Option.bind_eq_some_iff.1 hk
  rw [valueFrom?_singleton] at hj
  rw [← Option.isSome_map, hj, Option.isSome_some]

theorem valueFrom?_digits (width n : Nat) : valueFrom? 0 (digits width n) = some n := by
  rw [digits, valueFrom?_append, valueFrom?_zeros]
  exact valueFrom?_toDigits n

theorem digits_ne_nil (width n : Nat) : digits width n ≠ [] := by
  simp [digits, Nat.toDigits_ne_nil]

theorem number?_digits (width n : Nat) : number? (digits width n) = some n := by
  rw [number?, if_neg (digits_ne_nil width n), valueFrom?_digits]

/-- No colon stands in an offset, and neither a space nor a star among the digits of a byte. -/
theorem not_mem_digits {c : Char} (h : digit? c = none) (width n : Nat) : c ∉ digits width n := by
  intro hc
  have hsome := digit?_isSome_of_mem (valueFrom?_digits width n) hc
  rw [h] at hsome
  cases hsome

theorem length_digits {width n : Nat} (hwidth : 0 < width) (h : n < 16 ^ width) :
    (digits width n).length = width := by
  have hle := Nat.toDigits_length 16 n width hwidth h
  simp only [digits, List.length_append, List.length_replicate, List.length_map]
  omega

/-! Cells -/

/-- A byte takes up two digits and a space. -/
theorem exists_cell_eq (b : UInt8) :
    ∃ x y, cell b = [x, y, ' '] ∧ x ≠ ' ' ∧ number? [x, y] = some b.toNat := by
  have hlength : (digits 2 b.toNat).length = 2 := length_digits (by decide) b.toNat_lt
  obtain ⟨x, y, hdigits⟩ := List.length_eq_two.1 hlength
  refine ⟨x, y, by rw [cell, hdigits]; rfl, ?_, by rw [← hdigits, number?_digits]⟩
  rintro rfl
  exact not_mem_digits (c := ' ') rfl 2 b.toNat (by simp [hdigits])

theorem cells?_cell_append (most : Nat) (b : UInt8) (rest : List Char) :
    cells? (most + 1) (cell b ++ rest) = (cells? most rest).map (b :: ·) := by
  obtain ⟨x, y, hcell, hx, hnumber⟩ := exists_cell_eq b
  have hread : cells? (most + 1) (cell b ++ rest) =
      (cells? most rest).bind fun bytes => some (UInt8.ofNat b.toNat :: bytes) := by
    rw [hcell, List.cons_append, List.cons_append, List.cons_append, List.nil_append, cells?,
      if_neg (fun hblank => hx hblank.1), if_pos rfl, hnumber]
    rfl
  rw [hread, UInt8.ofNat_toNat, Option.map_eq_bind]
  rfl

theorem cells?_flatMap_append {bytes : Bytes} {most : Nat} (h : bytes.length ≤ most)
    (rest : List Char) :
    cells? most (bytes.flatMap cell ++ rest) =
      (cells? (most - bytes.length) rest).map (bytes ++ ·) := by
  induction bytes generalizing most with
  | nil => simp
  | cons b bytes ih =>
    obtain ⟨most, rfl⟩ := Nat.exists_eq_add_one_of_ne_zero (Nat.ne_of_gt (Nat.zero_lt_of_lt h))
    rw [List.flatMap_cons, List.append_assoc, cells?_cell_append,
      ih (Nat.le_of_succ_le_succ h), Option.map_map, List.length_cons, Nat.add_sub_add_right]
    rfl

theorem cells?_blank (most : Nat) (rest : List Char) :
    cells? most ((List.replicate most blankCell).flatten ++ rest) = some [] := by
  cases most with
  | zero => rfl
  | succ most => rfl

/-- The cells of a row, with the blank ones behind those of its bytes. -/
def cells (bytes : Bytes) : List Char :=
  bytes.flatMap cell ++ (List.replicate (rowLength - bytes.length) blankCell).flatten

theorem length_flatMap_cell (bytes : Bytes) : (bytes.flatMap cell).length = 3 * bytes.length := by
  induction bytes with
  | nil => rfl
  | cons b bytes ih =>
    obtain ⟨x, y, hcell, -⟩ := exists_cell_eq b
    rw [List.flatMap_cons, List.length_append, ih, hcell, List.length_cons]
    simp only [List.length_cons, List.length_nil]
    omega

theorem star_not_mem_cells (bytes : Bytes) : '*' ∉ cells bytes := by
  have hcell : ∀ b, '*' ∉ cell b := by
    intro b
    rw [cell, List.mem_append, not_or]
    exact ⟨not_mem_digits rfl 2 b.toNat, by decide⟩
  simp [cells, hcell, blankCell]

section
variable {bytes : Bytes} (h : bytes.length ≤ rowLength)
include h

theorem length_cells : (cells bytes).length = 3 * rowLength := by
  have hblank : (List.replicate (rowLength - bytes.length) blankCell).flatten.length =
      3 * (rowLength - bytes.length) := by
    simp [blankCell, Nat.mul_comm]
  rw [cells, List.length_append, length_flatMap_cell, hblank]
  omega

theorem cells?_cells (rest : List Char) : cells? rowLength (cells bytes ++ rest) = some bytes := by
  rw [cells, List.append_assoc, cells?_flatMap_append h, cells?_blank]
  simp

end

/-! Rows -/

theorem shownAs_glyph (b : UInt8) : ShownAs b (glyph b) := by
  unfold ShownAs glyph
  split
  · next hprint =>
    have hvalid : b.toNat.isValidChar := .inl (by omega)
    rw [Char.toNat_ofNat, if_pos hvalid]
  · rfl

def glyphs (bytes : Bytes) : List Char := '*' :: bytes.map glyph ++ ['*']

theorem row_eq (offset : Nat) (bytes : Bytes) :
    row offset bytes =
      digits 4 offset ++ ':' :: ' ' :: ' ' :: (cells bytes ++ [' ', ' ', ' '] ++ glyphs bytes) := by
  simp [row, cells, glyphs]

theorem cut_row (offset : Nat) (bytes : Bytes) :
    (row offset bytes).takeWhile (· != ':') = digits 4 offset ∧
      (row offset bytes).dropWhile (· != ':') =
        ':' :: ' ' :: ' ' :: (cells bytes ++ [' ', ' ', ' '] ++ glyphs bytes) := by
  rw [row_eq]
  exact cut_at_first (not_mem_digits rfl 4 offset) _

theorem behindOffset_row (offset : Nat) (bytes : Bytes) :
    behindOffset (row offset bytes) = cells bytes ++ [' ', ' ', ' '] ++ glyphs bytes := by
  rw [behindOffset, (cut_row offset bytes).2]
  rfl

theorem cut_behindOffset_row (offset : Nat) (bytes : Bytes) :
    (behindOffset (row offset bytes)).takeWhile (· != '*') = cells bytes ++ [' ', ' ', ' '] ∧
      (behindOffset (row offset bytes)).dropWhile (· != '*') = glyphs bytes := by
  rw [behindOffset_row]
  -- the glyphs may hold stars themselves, but the one before them comes first
  refine cut_at_first ?_ _
  rw [List.mem_append, not_or]
  exact ⟨star_not_mem_cells bytes, by decide⟩

section
variable {bytes : Bytes} (h : bytes.length ≤ rowLength)
include h

theorem rowBytes?_row (offset : Nat) : rowBytes? (row offset bytes) = some bytes := by
  rw [rowBytes?, behindOffset_row, List.append_assoc]
  exact cells?_cells h _

theorem shows_row (offset : Nat) : Shows (row offset bytes) offset bytes where
  offset_read := by rw [(cut_row offset bytes).1, number?_digits]
  spaced := by
    rw [(cut_row offset bytes).2]
    exact ⟨_, rfl⟩
  bytes_read := rowBytes?_row h offset
  width := ⟨cells bytes, (cut_behindOffset_row offset bytes).1, length_cells h⟩
  shown := by
    refine ⟨bytes.map glyph, (cut_behindOffset_row offset bytes).2, ?_⟩
    rw [List.forall₂_map_right_iff]
    exact List.forall₂_same.2 fun b _ => shownAs_glyph b

end

example : rowBytes? (row 0x10010 [0x2a, 0x3a, 0x0d]) = some [0x2a, 0x3a, 0x0d] ∧
    String.ofList (row 0x10010 [0x2a, 0x3a, 0x0d]) =
      "10010:  2A 3A 0D                                           **:.*" := by
  decide

/-! All rows -/

theorem length_rowsFrom (offset : Nat) (data : Bytes) :
    (rowsFrom offset data).length = (data.length + 15) / 16 := by
  fun_induction rowsFrom offset data with
  | case1 => rfl
  | case2 offset b bs ih =>
    rw [List.length_cons, ih, List.length_drop, List.length_cons, rowLength]
    omega

theorem getElem_rowsFrom (offset : Nat) (data : Bytes) (i : Nat)
    (h : i < (rowsFrom offset data).length) :
    (rowsFrom offset data)[i].toList =
      row (offset + 16 * i) ((data.drop (16 * i)).take rowLength) := by
  fun_induction rowsFrom offset data generalizing i with
  | case1 => cases h
  | case2 offset b bs ih =>
    cases i with
    | zero => simp
    | succ i =>
      have hoffset : offset + rowLength + 16 * i = offset + 16 * (i + 1) := by
        simp only [rowLength]
        omega
      have hdrop : rowLength + 16 * i = 16 * (i + 1) := by
        simp only [rowLength]
        omega
      rw [List.getElem_cons_succ, ih, List.drop_drop, hoffset, hdrop]

theorem readBack?_rowsFrom (offset : Nat) (data : Bytes) :
    readBack? (rowsFrom offset data) = some data := by
  fun_induction rowsFrom offset data with
  | case1 => rfl
  | case2 offset b bs ih =>
    have hrow := rowBytes?_row (List.length_take_le rowLength (b :: bs)) offset
    rw [readBack?_cons, String.toList_ofList, hrow, ih, Option.bind_some, Option.map_some,
      List.take_append_drop]

/-- A dump is of one frame only. -/
theorem rows_injective : Function.Injective rows := by
  intro data data' h
  have hdata := readBack?_rowsFrom 0 data
  rw [← rows, h, rows, readBack?_rowsFrom] at hdata
  exact (Option.some.inj hdata).symm

/-- The rows of a dump are as many as the data needs, each shows its sixteen bytes or what is left
of the data, and together they read as the data. -/
theorem rows_show_data (data : Bytes) :
    (rows data).length = (data.length + 15) / 16 ∧
      (∀ i : Fin (rows data).length,
        Shows (rows data)[i].toList (16 * i) ((data.drop (16 * i)).take 16)) ∧
      readBack? (rows data) = some data := by
  refine ⟨length_rowsFrom 0 data, fun i => ?_, readBack?_rowsFrom 0 data⟩
  have hrow := getElem_rowsFrom 0 data i i.isLt
  rw [Nat.zero_add] at hrow
  exact hrow ▸ shows_row (List.length_take_le _ _) _

end IGate.HexDump
