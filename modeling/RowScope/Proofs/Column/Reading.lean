import RowScope.Column.Convert

/-!
# Readings and Projections

A column is read by projections of its cell. Each getter is one projection, with
something in place of NULL where a plain value is asked for; only the name of a
column is not read from its cell. A conversion is made of getters, so it depends
on nothing but the cell either, except that the answer may be the column itself.

A column that is made of a cell alone thus answers like any column over the same
cell, and what is said of cells carries over to columns.

## Main definitions

* `Getter.projection?`: What a getter makes of a cell.
* `Target.getter?`: The getter behind a conversion to a kind of value.
* `Cell.alone`: A column that is made of a cell alone.

## Theorems

* `get_eq_projection`: A getter answers as its projection.
* `convert_eq_getter`: A conversion to a kind of value answers as its getter.
* `convert_congr`: A conversion depends on the cell alone.
-/

namespace RowScope

/-- What a getter makes of a cell; the index of the column shows in messages.
    The name of a column is not read from the cell. -/
def Getter.projection? (index : Int) (cell : Cell) : Getter → Option (Except CellFault Value)
  | .int32 => some (cell.int32.map .integer)
  | .uint32 => some (cell.uint32.map .integer)
  | .int64 => some (cell.int64.map .integer)
  | .long => some (cell.int64.map .integer)
  | .double => some (cell.double.map .real)
  | .text => some ((cell.textOr []).map .text)
  | .window => some (cell.bytes?.map (Value.ofOption .window))
  | .content => some (cell.content.map .bytes)
  | .byteCount => some (cell.byteCount.map fun n => .integer (n : Nat))
  | .storageClass => some (cell.storageClass.map .storageClass)
  | .isClass s => some (cell.storageClass.map fun found => .truth (found == s))
  | .name => none
  | .fullText => some (cell.fullText.map .text)
  | .described => some (cell.storageClass.map fun s =>
      .text (Text.ofString "<Column " ++ Text.ofInt index ++ Text.ofString ": " ++
        Text.ofString s.name ++ Text.ofString ">"))
  | .index => some (.ok (.integer index))

/-- The getter behind a conversion to a kind of value. -/
def Target.getter? : Target → Option Getter
  | .integer => some .int64
  | .real => some .double
  | .text => some .fullText
  | .bytes => some .content
  | .window => some .window
  | .storageClass => some .storageClass
  | _ => none

/-- A column that is made of a cell alone, and has no name. -/
def Cell.alone (cell : Cell) (id : ViewId) (index : Int) : Column :=
  ⟨id, index, true, .ok cell, .error .resultMissing⟩

theorem ofCellReading_bind {α β : Type} (x : Except CellFault α) (f : α → β) :
    (do let a ← ofCellReading x; return f a) = ofCellReading (x.map f) := by
  rcases x with fault | a
  · rfl
  · rfl

namespace Column

theorem read_of_cell {α : Type} (c : Column) (cell : Cell) (hcell : c.cell = .ok cell)
    (reading : Cell → Except CellFault α) : c.read reading = ofCellReading (reading cell) := by
  rw [read, hcell]
  rfl

/-- A getter answers as its projection, a row being current. The row is asked
    for on account of `described` alone, which shows something else where there
    is none; all other getters read the cell and nothing more. -/
theorem get_eq_projection (c : Column) (cell : Cell) (hcell : c.cell = .ok cell)
    (hrow : c.hasRow = true) (g : Getter) (answer : Except CellFault Value)
    (hg : g.projection? c.index cell = some answer) : c.get g = ofCellReading answer := by
  cases g with
  -- A name is no projection, so there is nothing to show.
  | name => exact nomatch hg
  | index =>
      rw [Getter.projection?, Option.some.injEq] at hg
      rw [← hg]
      rfl
  | described =>
      rw [Getter.projection?, Option.some.injEq] at hg
      rw [← hg, get, described]
      simp only [hrow, if_true, read_of_cell c cell hcell]
      rcases cell.storageClass with fault | s
      · rfl
      · rfl
  | text =>
      rw [Getter.projection?, Option.some.injEq] at hg
      rw [← hg, get, textOr]
      simp only [read_of_cell c cell hcell, ofCellReading_bind]
  -- The others are one reading of the cell with a constructor around it.
  | _ =>
      rw [Getter.projection?, Option.some.injEq] at hg
      rw [← hg, get]
      simp only [read_of_cell c cell hcell, ofCellReading_bind]

/-- A conversion to a kind of value answers as its getter. What is known of
    getters is thereby known of these conversions, and only the truth value,
    which is no getter, needs a lemma of its own. -/
theorem convert_eq_getter (c : Column) (t : Target) (g : Getter) (hg : t.getter? = some g) :
    c.convert t = c.get g := by
  cases t with
  | integer => rw [← Option.some.inj hg, convert]
  | real => rw [← Option.some.inj hg, convert]
  | text => rw [← Option.some.inj hg, convert]
  | bytes => rw [← Option.some.inj hg, convert]
  | window => rw [← Option.some.inj hg, convert]
  | storageClass => rw [← Option.some.inj hg, convert]
  | _ => exact nomatch hg

/-- A conversion to a truth value reads the integer and asks whether it is zero,
    so it fails exactly where the integer reading does. -/
theorem convert_truth (c : Column) (cell : Cell) (hcell : c.cell = .ok cell) :
    c.convert .truth = ofCellReading (cell.int64.map fun n => .truth (n != 0)) := by
  rw [convert]
  simp only [read_of_cell c cell hcell, ofCellReading_bind]

/-- A conversion depends on the cell, and on which column it is, but not on its
    name. The identity and the index matter because a conversion to a column
    answers with the column itself. -/
theorem convert_congr (c d : Column) (cell : Cell) (hc : c.cell = .ok cell) (hd : d.cell = .ok cell)
    (hid : c.id = d.id) (hindex : c.index = d.index) (t : Target) :
    c.convert t = d.convert t := by
  have hread : ∀ {α : Type} (reading : Cell → Except CellFault α),
      c.read reading = d.read reading :=
    fun reading => by rw [read_of_cell c cell hc, read_of_cell d cell hd]
  have hget : ∀ (u : Target) (g : Getter), u.getter? = some g → c.get g = d.get g →
      c.convert u = d.convert u := fun u g hg heq => by
    rw [convert_eq_getter c u g hg, convert_eq_getter d u g hg, heq]
  -- A conversion to alternatives tries them in order, so both functions are
  -- done at once.
  refine convert.induct (fun t => c.convert t = d.convert t)
    (fun ts => c.convertSome ts = d.convertSome ts) ?_ ?_ ?_ ?_ ?_ ?_ ?_ ?_ ?_ ?_ ?_ ?_ ?_ ?_ ?_ ?_
    ?_ ?_ ?_ t
  · exact hget .integer .int64 rfl (by simp only [get, hread])
  · exact hget .real .double rfl (by simp only [get, hread])
  · exact hget .text .fullText rfl (by simp only [get, hread])
  · exact hget .bytes .content rfl (by simp only [get, hread])
  · exact hget .window .window rfl (by simp only [get, hread])
  · rw [convert_truth c cell hc, convert_truth d cell hd]
  · exact hget .storageClass .storageClass rfl (by simp only [get, hread])
  · rw [convert, convert, hid, hindex]
  · rw [convert, convert, hid, hindex]
  · rw [convert, convert]
  · rw [convert, convert]
  · intro typeName
    rw [convert, convert]
  · intro name
    rw [convert, convert]
  · intro name base hne ih
    rw [convert, convert, ih]
    · exact hne
    · exact hne
  · intro spelling alternatives hdecided ih
    rw [convert, convert, ih]
    simp only [isNull, hread]
  · intro spelling alternatives hopen
    rw [convert, convert]
    simp only [isNull, hread, hopen, Bool.false_eq_true, if_false]
  · rw [convertSome, convertSome]
  · intro rest ih
    rw [convertSome, convertSome, ih]
  · intro u tail hne ih
    rw [convertSome, convertSome, ih]
    · exact hne
    · exact hne

end Column

end RowScope
