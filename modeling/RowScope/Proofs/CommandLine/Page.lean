import RowScope.CommandLine.Printing
import RowScope.Proofs.Column.Content

/-!
# Pages

What a printed result looks like in bytes, said without the program that prints
it. A row is a line of its cells, and every cell has the bytes that are read
from it; where storage classes are asked for, each follows its cell. The names
of the columns are one more line, in front, unless there is no row.

The program writes text, and texts have bytes piece by piece. So it is enough to
know of every piece that is written which bytes it has, and `Text.Grows` keeps
account of that: from one text to a longer one, what came in between has such
bytes.

## Main definitions

* `StorageClass.tag`: The name of a storage class behind a colon.
* `line`: Parts with tabs between them, and a line feed.
* `RowStyle.cellBytes`: The bytes of a cell.
* `RowStyle.page`, `RowStyle.pageFrom`: The bytes of a result, and of what is
  left of it.
* `Text.Grows`: A text that has become longer.
* `tabbed`: Parts as they are written one by one.

## Theorems

* `pageFrom_zero`: From the first row on, what is left is all of it.
* `tabbed_zero`: From the first part on, these are the parts with tabs between
  them.
* `encode_joined`: The bytes of names with tabs between them.
* `delivered_printed`: The text of a delivered cell has the bytes of the cell.
* `cell_bytes`: What is printed of a delivered cell has these bytes, and those
  of its class.
* `headerLine_bytes`: The line in front.
-/

namespace RowScope

/-- The name of a storage class, which is ASCII, behind a colon. -/
def StorageClass.tag (k : StorageClass) : Bytes :=
  58 :: k.name.toList.map fun c => UInt8.ofNat c.toNat

/-- A line: its parts with tabs between them, and a line feed. -/
def line (parts : List Bytes) : Bytes :=
  [9].intercalate parts ++ [10]

namespace RowStyle

/-- The bytes of a cell. A cell that cannot be read has none, and no engine
    delivers one. -/
def cellBytes (style : RowStyle) (c : Cell) : Bytes :=
  match c.content, c.storageClass with
  | .ok content, .ok k => content ++ if style.types then k.tag else []
  | _, _ => []

/-- The bytes of the line with the names of the columns. -/
def nameLine (names : List Text) : Bytes :=
  line (names.map fun name => (Text.encode name).getD [])

/-- The bytes of the rows. -/
def body (style : RowStyle) (rows : List Row) : Bytes :=
  rows.flatMap fun row => line (row.map style.cellBytes)

/-- The bytes of a result. -/
def page (style : RowStyle) (names : List Text) (rows : List Row) : Bytes :=
  (if style.header && !rows.isEmpty then nameLine names else []) ++ style.body rows

/-- What is left of a result after so many rows. The names come with the first
    row. -/
def pageFrom (style : RowStyle) (names : List Text) : Nat → List Row → Bytes
  | _, [] => []
  | k, row :: rest =>
    (if style.header && k == 0 then nameLine names else []) ++ line (row.map style.cellBytes) ++
      pageFrom style names (k + 1) rest

theorem pageFrom_succ (style : RowStyle) (names : List Text) (k : Nat) (rows : List Row) :
    style.pageFrom names (k + 1) rows = style.body rows := by
  induction rows generalizing k with
  | nil => rfl
  | cons row rest ih =>
      have hlater : ¬ (style.header && k + 1 == 0) = true := by
        rw [show (k + 1 == 0) = false from rfl, Bool.and_false]
        exact Bool.false_ne_true
      rw [pageFrom, if_neg hlater, ih]
      rfl

/-- Nothing was printed yet, so all of it is left. The names come with the first
    row in one description and in front of all rows in the other, which is why
    they are missing from both if there is no row. -/
theorem pageFrom_zero (style : RowStyle) (names : List Text) (rows : List Row) :
    style.pageFrom names 0 rows = style.page names rows := by
  cases rows with
  | nil => simp only [pageFrom, page, List.isEmpty_nil, Bool.not_true, Bool.and_false,
      Bool.false_eq_true, if_false, body, List.flatMap_nil, List.append_nil]
  | cons row rest =>
      simp only [pageFrom, page, pageFrom_succ, List.isEmpty_cons, Bool.not_false, BEq.rfl,
        List.append_assoc]
      rfl

end RowStyle

/-! ### Growing texts -/

/-- One text is another one and something more, which has these bytes. -/
def Text.Grows (s t : Text) (bytes : Bytes) : Prop :=
  ∃ more, t = s ++ more ∧ Text.encode more = some bytes

namespace Text.Grows

theorem refl (t : Text) : t.Grows t [] :=
  ⟨[], (List.append_nil t).symm, rfl⟩

theorem append (s : Text) {t : Text} {bytes : Bytes} (ht : Text.encode t = some bytes) :
    s.Grows (s ++ t) bytes :=
  ⟨t, rfl, ht⟩

/-- Texts grow one after the other, and the bytes of what came in between are
    those of its parts. This is where it matters that the codec writes each code
    point by itself. -/
theorem trans {s t u : Text} {a b : Bytes} (hst : s.Grows t a) (htu : t.Grows u b) :
    s.Grows u (a ++ b) := by
  rcases hst with ⟨x, rfl, hx⟩
  rcases htu with ⟨y, rfl, hy⟩
  exact ⟨x ++ y, List.append_assoc s x y, Text.encode_append hx hy⟩

/-- All of a text that has grown out of nothing is new. -/
theorem encode {t : Text} {bytes : Bytes} (h : Text.Grows [] t bytes) :
    Text.encode t = some bytes := by
  rcases h with ⟨more, rfl, hmore⟩
  exact hmore

end Text.Grows

/-! ### Separators and names -/

/-- Parts that are written one by one, from this index on, with a tab in front
    of each but the first. -/
def tabbed : Nat → List Bytes → Bytes
  | _, [] => []
  | i, part :: rest => (if i = 0 then [] else [9]) ++ part ++ tabbed (i + 1) rest

theorem tabbed_succ (i : Nat) (part : Bytes) (rest : List Bytes) :
    tabbed (i + 1) (part :: rest) = 9 :: [9].intercalate (part :: rest) := by
  induction rest generalizing i part with
  | nil =>
      rw [List.intercalate_singleton]
      exact List.append_nil (9 :: part)
  | cons next rest ih =>
      rw [tabbed, if_neg (Nat.succ_ne_zero i), ih, List.intercalate_cons_cons]
      simp only [List.cons_append, List.nil_append, List.append_assoc]

/-- From the first one on these are the parts with tabs between them. Printing
    decides for each cell whether a tab goes in front, by its index alone, and
    does not know how many cells are to come. -/
theorem tabbed_zero (parts : List Bytes) : tabbed 0 parts = [9].intercalate parts := by
  rcases parts with _ | ⟨part, _ | ⟨next, rest⟩⟩
  · rfl
  · rw [List.intercalate_singleton]
    exact List.append_nil part
  · rw [tabbed, if_pos rfl, tabbed_succ, List.intercalate_cons_cons, List.nil_append,
      List.append_assoc]
    rfl

namespace RowStyle

theorem encode_tab : Text.encode tab = some [9] := by
  decide +kernel

theorem encode_newline : Text.encode newline = some [10] := by
  decide +kernel

theorem encode_colon : Text.encode colon = some [58] := by
  decide +kernel

/-- The bytes of names with tabs between them, if each name has bytes. -/
theorem encode_joined (names : List Text) (h : ∀ name ∈ names, name.IsEncodable) :
    Text.encode (Text.joined tab names) =
      some ([9].intercalate (names.map fun name => (Text.encode name).getD [])) := by
  have written : ∀ name ∈ names, Text.encode name = some ((Text.encode name).getD []) := by
    intro name hname
    rcases Option.isSome_iff_exists.mp ((Text.encode_isSome_iff name).mpr (h name hname)) with
      ⟨bytes, hbytes⟩
    rw [hbytes, Option.getD_some]
  -- The names that are left are fewer in the induction, and what is known of
  -- them is `written`.
  clear h
  fun_induction Text.joined tab names with
  | case1 => rfl
  | case2 name =>
      rw [List.map_singleton, List.intercalate_singleton]
      exact written name List.mem_cons_self
  | case3 name rest hrest ih =>
      rcases List.forall_mem_cons.mp written with ⟨hname, hothers⟩
      rw [List.map_cons, List.intercalate_cons_of_ne_nil]
      · exact Text.encode_append (Text.encode_append hname encode_tab) (ih hothers)
      · rw [Ne, List.map_eq_nil_iff]
        exact hrest

/-- The line in front has its bytes, and if it is not printed it has none. Names
    are only asked to be encoded where they are printed. -/
theorem headerLine_bytes (style : RowStyle) (names : List Text) (row : Nat)
    (h : style.header = true → ∀ name ∈ names, name.IsEncodable) :
    Text.encode (style.headerLine names row) =
      some (if style.header && row == 0 then nameLine names else []) := by
  unfold headerLine
  rcases hheader : style.header with _ | _
  · rfl
  · rw [Bool.true_and]
    split
    · exact Text.encode_append (encode_joined names (h hheader)) encode_newline
    · rfl

/-! ### Cells -/

/-- The name of a storage class is ASCII, so its bytes are its characters. -/
theorem encode_className (k : StorageClass) :
    Text.encode (colon ++ Text.ofString k.name) = some k.tag := by
  have hascii : (Text.ofString k.name).IsAscii := by
    refine Text.ofChars_isAscii k.name.toList ?_
    cases k with
    | _ => decide +kernel
  have hname := Text.encode_append encode_colon (Text.encode_ascii _ hascii)
  rw [Text.ofString, List.map_map] at hname
  exact hname

end RowStyle

/-- The text of a delivered cell has the bytes of the cell. This is where the
    text readings and the byte readings are brought together: what is printed is
    text, and what a page is said to consist of are bytes. -/
theorem Cell.delivered_printed (c : Cell) (hc : c.IsDelivered) :
    ∃ text bytes, c.fullText = .ok text ∧ c.content = .ok bytes ∧
      Text.encode text = some bytes := by
  by_cases hnull : c = .null
  · rw [hnull]
    exact ⟨[], [], rfl, rfl, rfl⟩
  · rcases c.delivered_written hc hnull with ⟨bytes, hbytes, htext⟩
    refine ⟨Text.decode bytes, bytes, ?_, ?_, Text.encode_decode bytes⟩
    · rw [fullText, htext]
      rfl
    · rw [content, hbytes]
      rfl

/-- What is printed of a delivered cell has its bytes, and the name of its class
    behind them if that is asked for. NULL has no bytes, but it has a class. -/
theorem RowStyle.cell_bytes (style : RowStyle) (column : Column) (c : Cell)
    (hcell : column.cell = .ok c) (hc : c.IsDelivered) :
    ∃ t, style.cell column = .ok t ∧ Text.encode t = some (style.cellBytes c) := by
  rcases c.delivered_printed hc with ⟨text, bytes, htext, hbytes, hencode⟩
  have hclass : ∃ k, c.storageClass = .ok k := by
    cases hc with
    | _ => exact ⟨_, rfl⟩
  rcases hclass with ⟨k, hk⟩
  refine ⟨if style.types then text ++ colon ++ Text.ofString k.name else text, ?_, ?_⟩
  · simp only [cell, column.read_of_cell c hcell, hk, htext]
    rfl
  · simp only [cellBytes, hbytes, hk]
    rcases style.types with _ | _
    · rw [if_neg Bool.false_ne_true, if_neg Bool.false_ne_true, List.append_nil]
      exact hencode
    · rw [if_pos rfl, if_pos rfl, List.append_assoc]
      exact Text.encode_append hencode (encode_className k)

end RowScope
