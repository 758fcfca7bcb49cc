import RowScope.Column.Record

/-!
# Renaming Views

The identity of a view is the place of its making, so two sessions in which the
same is done may have different identities for the same view. What is read of a
column does not depend on that. Where an answer is the view itself, or holds
views, renaming the view renames it in the answer, and nothing else happens. So
a conversion commutes with every renaming, and so does the building of a record,
if the views among the defaults of its fields are renamed as well.

## Main definitions

* `Value.renamed`: A value under other identities of its views.
* `Column.renamed`, `Field.renamed`, `Shape.renamed`: The same for columns and
  records.

## Theorems

* `views_renamed`, `renamed_renamed`, `renamed_self`: What a renaming does to
  values.
* `get_renamed`: A getter does not look at the view.
* `convert_renamed`: A conversion commutes with renaming.
* `build_renamed`: So does the building of a record.
-/

namespace RowScope

/-! ### Values -/

namespace Value

mutual

/-- A value under other identities of its views. -/
def renamed (f : ViewId → ViewId) : Value → Value
  | column id index => column (f id) index
  | record name fields => record name (renamedFields f fields)
  | list values => list (renamedEach f values)
  | v => v

/-- The fields of a record under other identities of their views. -/
def renamedFields (f : ViewId → ViewId) : List (Text × Value) → List (Text × Value)
  | [] => []
  | (name, v) :: rest => (name, renamed f v) :: renamedFields f rest

/-- Several values under other identities of their views. -/
def renamedEach (f : ViewId → ViewId) : List Value → List Value
  | [] => []
  | v :: rest => renamed f v :: renamedEach f rest

end

/-- Values of a list are renamed one by one; the recursion of its own is there
    for the nesting only. -/
theorem renamedEach_eq_map (f : ViewId → ViewId) (values : List Value) :
    renamedEach f values = values.map (renamed f) := by
  induction values with
  | nil => rfl
  | cons v rest ih => rw [renamedEach, ih, List.map_cons]

mutual

/-- The views of a renamed value are the renamed views. The recursion follows
    the nesting of values, with the fields of a record and the members of a list
    in two functions beside it. -/
theorem views_renamed (f : ViewId → ViewId) (v : Value) : (v.renamed f).views = v.views.map f := by
  cases v with
  | record name fields =>
      rw [renamed, views, views]
      exact viewsOfFields_renamed f fields
  | list values =>
      rw [renamed, views, views]
      exact viewsOfEach_renamed f values
  | _ => rfl

theorem viewsOfFields_renamed (f : ViewId → ViewId) (fields : List (Text × Value)) :
    viewsOfFields (renamedFields f fields) = (viewsOfFields fields).map f := by
  cases fields with
  | nil => rfl
  | cons p rest =>
      rw [renamedFields, viewsOfFields, viewsOfFields, List.map_append, views_renamed f p.2,
        viewsOfFields_renamed f rest]

theorem viewsOfEach_renamed (f : ViewId → ViewId) (values : List Value) :
    viewsOfEach (renamedEach f values) = (viewsOfEach values).map f := by
  cases values with
  | nil => rfl
  | cons v rest =>
      rw [renamedEach, viewsOfEach, viewsOfEach, List.map_append, views_renamed f v,
        viewsOfEach_renamed f rest]

end

mutual

theorem renamed_renamed (f g : ViewId → ViewId) (v : Value) :
    (v.renamed f).renamed g = v.renamed fun id => g (f id) := by
  cases v with
  | record name fields => rw [renamed, renamed, renamed, renamedFields_renamedFields]
  | list values => rw [renamed, renamed, renamed, renamedEach_renamedEach]
  | _ => rfl

theorem renamedFields_renamedFields (f g : ViewId → ViewId) (fields : List (Text × Value)) :
    renamedFields g (renamedFields f fields) = renamedFields (fun id => g (f id)) fields := by
  cases fields with
  | nil => rfl
  | cons p rest =>
      rw [renamedFields, renamedFields, renamedFields, renamed_renamed f g p.2,
        renamedFields_renamedFields f g rest]

theorem renamedEach_renamedEach (f g : ViewId → ViewId) (values : List Value) :
    renamedEach g (renamedEach f values) = renamedEach (fun id => g (f id)) values := by
  cases values with
  | nil => rfl
  | cons v rest =>
      rw [renamedEach, renamedEach, renamedEach, renamed_renamed f g v,
        renamedEach_renamedEach f g rest]

end

mutual

/-- To rename each view to itself changes nothing. -/
theorem renamed_self (v : Value) : v.renamed (fun id => id) = v := by
  cases v with
  | record name fields => rw [renamed, renamedFields_self fields]
  | list values => rw [renamed, renamedEach_self values]
  | _ => rfl

theorem renamedFields_self (fields : List (Text × Value)) :
    renamedFields (fun id => id) fields = fields := by
  cases fields with
  | nil => rfl
  | cons p rest => rw [renamedFields, renamed_self p.2, renamedFields_self rest]

theorem renamedEach_self (values : List Value) : renamedEach (fun id => id) values = values := by
  cases values with
  | nil => rfl
  | cons v rest => rw [renamedEach, renamed_self v, renamedEach_self rest]

end

/-! #### Values without views -/

/-- What is stored in a cell holds no view. -/
theorem ofCell_renamed (f : ViewId → ViewId) (c : Cell) : (ofCell c).renamed f = ofCell c := by
  cases c with
  | _ => rfl

theorem ofStored_renamed (f : ViewId → ViewId) (c : Cell) :
    (ofStored c).renamed f = ofStored c := by
  cases c with
  | _ => rfl

section

variable (f : ViewId → ViewId) {ε α : Type} (value : α → Value)
  (plain : ∀ a, (value a).renamed f = value a)

include plain

theorem ofOption_renamed (o : Option α) :
    (ofOption value o).renamed f = ofOption value o := by
  cases o with
  | none => rfl
  | some a => exact plain a

/-- Something is read and answered with one kind of value. A kind of value that
    no renaming changes makes answers that no renaming changes, a fault being
    none of its concern. -/
theorem renamed_map (x : Except ε α) : (x.map value).map (renamed f) = x.map value := by
  rcases x with fault | a
  · rfl
  · exact congrArg Except.ok (plain a)

theorem renamed_bind (x : Except ε α) :
    (do return value (← x) : Except ε Value).map (renamed f) =
      (do return value (← x) : Except ε Value) := by
  rcases x with fault | a
  · rfl
  · exact congrArg Except.ok (plain a)

theorem renamed_list (xs : List α) : (list (xs.map value)).renamed f = list (xs.map value) := by
  rw [renamed, renamedEach_eq_map, List.map_map]
  congr 1
  refine List.map_congr_left ?_
  intro x _
  exact plain x

end

end Value

/-! ### Columns -/

namespace Column

/-- A column under another identity of its view. -/
def renamed (f : ViewId → ViewId) (c : Column) : Column := { c with id := f c.id }

variable (f : ViewId → ViewId) (c : Column)

/-- A getter does not look at the view. The getters read what the column has of
    its cell, its name and its index, and none of this belongs to the
    identity. -/
theorem get_renamed (g : Getter) : (c.renamed f).get g = c.get g := by
  cases g with
  | _ => rfl

/-- What a getter reads holds no view, so renaming leaves it as it is. -/
theorem get_plain (g : Getter) : (c.get g).map (Value.renamed f) = c.get g := by
  cases g with
  | index => rfl
  | window => exact Value.renamed_bind f _ (Value.ofOption_renamed f .window fun _ => rfl) _
  | _ => exact Value.renamed_bind f _ (fun _ => rfl) _

/-- A conversion commutes with renaming. The only conversions in which the view
    shows are those to the column itself, and there the new identity is what is
    answered. All others go by getters, or by a decision that the identity has
    no part in. -/
theorem convert_renamed (t : Target) :
    (c.renamed f).convert t = (c.convert t).map (Value.renamed f) := by
  have getter : ∀ g, (c.renamed f).get g = (c.get g).map (Value.renamed f) := by
    intro g
    rw [get_renamed, get_plain]
  -- A conversion to alternatives tries them in order, so both functions are
  -- done at once.
  refine convert.induct
    (fun t => (c.renamed f).convert t = (c.convert t).map (Value.renamed f))
    (fun ts => (c.renamed f).convertSome ts = (c.convertSome ts).map (Value.renamed f)) ?_ ?_ ?_ ?_
    ?_ ?_ ?_ ?_ ?_ ?_ ?_ ?_ ?_ ?_ ?_ ?_ ?_ ?_ ?_ t
  · rw [convert, convert]
    exact getter .int64
  · rw [convert, convert]
    exact getter .double
  · rw [convert, convert]
    exact getter .fullText
  · rw [convert, convert]
    exact getter .content
  · rw [convert, convert]
    exact getter .window
  · rw [convert, convert]
    have hread : (c.renamed f).read Cell.int64 = c.read Cell.int64 := rfl
    rw [hread]
    rcases c.read Cell.int64 with fault | n
    · rfl
    · rfl
  · rw [convert, convert]
    exact getter .storageClass
  · rw [convert, convert]
    rfl
  · rw [convert, convert]
    rfl
  · rw [convert, convert]
    rfl
  · rw [convert, convert]
    rfl
  · intro typeName
    rw [convert, convert]
    rfl
  · intro name
    rw [convert, convert]
    rfl
  · intro name base hne ih
    rw [convert, convert]
    · exact ih
    · exact hne
    · exact hne
  · intro spelling alternatives hdecided ih
    have hnull : (c.renamed f).isNull = c.isNull := rfl
    rw [convert, convert, if_pos hdecided, if_pos hdecided, hnull]
    rcases c.isNull with fault | null
    · rfl
    · cases null with
      | true => rfl
      | false => exact ih
  · intro spelling alternatives hopen
    rw [convert, convert, if_neg hopen, if_neg hopen]
    rfl
  · rw [convertSome, convertSome]
    rfl
  · intro rest ih
    rw [convertSome, convertSome]
    exact ih
  · intro u tail hne ih
    rw [convertSome, convertSome]
    · exact ih
    · exact hne
    · exact hne

end Column

/-! ### Records -/

/-- A field whose default is renamed. -/
def Field.renamed (f : ViewId → ViewId) (field : Field) : Field :=
  { field with default := field.default.map (Value.renamed f) }

/-- A shape whose defaults are renamed. -/
def Shape.renamed (f : ViewId → ViewId) : Shape → Shape
  | .fields name fs => .fields name (fs.map (Field.renamed f))
  | shape => shape

section

variable (f : ViewId → ViewId)

/-- Something is made of values one by one, and so is its renaming. A failure
    comes at the same place on both sides, with the same fault. -/
theorem mapM_renamed {α : Type} (p q : α → Except Fault Value) (xs : List α)
    (hp : ∀ x ∈ xs, q x = (p x).map (Value.renamed f)) :
    xs.mapM q = (xs.mapM p).map (List.map (Value.renamed f)) := by
  induction xs with
  | nil => rfl
  | cons x rest ih =>
      rw [List.mapM_cons, List.mapM_cons, hp x List.mem_cons_self,
        ih fun y hy => hp y (List.mem_cons_of_mem x hy)]
      rcases p x with fault | v
      · rfl
      · rcases rest.mapM p with fault | vs
        · rfl
        · rfl

namespace Field

theorem byDefault_renamed (field : Field) :
    (field.renamed f).byDefault = field.byDefault.map fun p => (p.1, p.2.renamed f) := by
  rcases field with ⟨name, annotation, default, isParameter, keywordOnly⟩
  cases default with
  | some v => rfl
  | none =>
      cases isParameter with
      | true => rfl
      | false => rfl

/-- The fields of a record are filled in the same way under all identities,
    since it is never asked what a value holds, only whether there is one. -/
theorem fill_renamed (fs : List Field) (values : List Value) :
    fill (fs.map (Field.renamed f)) (values.map (Value.renamed f)) =
      (fill fs values).map (Value.renamedFields f) := by
  induction fs generalizing values with
  | nil =>
      cases values with
      | nil => rfl
      | cons v rest => rfl
  | cons field fs ih =>
      have hposition : (field.renamed f).isPositional = field.isPositional := rfl
      -- A field that takes no value by position has its default.
      have default : ∀ values : List Value,
          (do
            let held ← (field.renamed f).byDefault
            let others ← fill (fs.map (Field.renamed f)) (values.map (Value.renamed f))
            return held :: others) =
          (do
            let held ← field.byDefault
            let others ← fill fs values
            return held :: others).map (Value.renamedFields f) := by
        intro values
        rw [byDefault_renamed, ih]
        rcases field.byDefault with _ | held
        · rfl
        · rcases fill fs values with _ | others
          · rfl
          · rfl
      rw [List.map_cons]
      rcases hf : field.isPositional with _ | _
      · simp only [fill, hposition, hf]
        exact default values
      · cases values with
        | nil =>
            simp only [List.map_nil, fill, hposition, hf]
            exact default []
        | cons v rest =>
            simp only [List.map_cons, fill, hposition, hf, ih]
            rcases fill fs rest with _ | others
            · rfl
            · rfl

end Field

namespace Shape

/-- Annotations hold no values, so renaming does not touch them. -/
theorem annotations_renamed (shape : Shape) (count : Nat) :
    (shape.renamed f).annotations count = shape.annotations count := by
  cases shape with
  | fields name fs =>
      have hsame : ((fs.map (Field.renamed f)).filter Field.isParameter).map Field.target =
          (fs.filter Field.isParameter).map Field.target := by
        rw [List.filter_map, List.map_map]
        rfl
      simp only [renamed, annotations, hsame]
  | _ => rfl

/-- The values that are handed over are renamed with the columns that they are
    converted from. -/
theorem arguments_renamed (shape : Shape) (columns : List Column) :
    (shape.renamed f).arguments (columns.map (Column.renamed f)) =
      (shape.arguments columns).map (List.map (Value.renamed f)) := by
  unfold arguments
  rw [annotations_renamed, List.length_map, List.zip_map_left, List.mapM_map]
  refine mapM_renamed f _ _ _ ?_
  intro p _
  exact p.1.convert_renamed f p.2

/-- What is made of the values commutes with renaming. A scalar is read by a
    getter, which is plain; a sequence takes no values; and in the other shapes
    the values stay as they were handed over. -/
theorem construct_renamed (shape : Shape) (columns : List Column) (values : List Value) :
    (shape.renamed f).construct (columns.map (Column.renamed f)) (values.map (Value.renamed f)) =
      (shape.construct columns values).map (Value.renamed f) := by
  cases shape with
  | columns =>
      simp only [renamed, construct, Except.map, Value.renamed, Value.renamedEach_eq_map]
  | exactly n =>
      -- Renaming keeps the number of the values, which is all that is checked.
      simp only [renamed, construct, List.length_map]
      by_cases hcount : values.length = n
      · rw [if_pos hcount, if_pos hcount]
        simp only [Except.map, Value.renamed, Value.renamedEach_eq_map]
      · rw [if_neg hcount, if_neg hcount]
        rfl
  | scalar s =>
      rcases columns with _ | ⟨c, _ | ⟨d, rest⟩⟩
      · cases s with
        | _ => rfl
      · exact (c.get_renamed f s.getter).trans (c.get_plain f s.getter).symm
      · rfl
  | sequence =>
      cases values with
      | nil => rfl
      | cons v rest => rfl
  | fields name fs =>
      simp only [renamed, construct, Field.fill_renamed]
      rcases Field.fill fs values with _ | held
      · rfl
      · rfl

/-- The building of a record commutes with renaming: the conversions do, and
    then what is made of them. The defaults are renamed as well, because a
    default may hold a view that was made earlier. -/
theorem build_renamed (shape : Shape) (columns : List Column) :
    (shape.renamed f).build (columns.map (Column.renamed f)) =
      (shape.build columns).map (Value.renamed f) := by
  unfold build
  rw [arguments_renamed]
  rcases shape.arguments columns with fault | values
  · rfl
  · exact construct_renamed f shape columns values

end Shape

end

end RowScope
