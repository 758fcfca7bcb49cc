import RowScope.Proofs.Column.Binding
import RowScope.Proofs.Column.Renaming

/-!
# The Views That a Record Holds

A conversion answers with a plain value or with the column itself, and then the
answer holds the one view of that column. The values that are handed over to a
record hold the views of its columns in order, some of them, and none twice. A
record puts its values into its fields in order and has nothing else but
defaults, so as far as the defaults hold older views it holds just what was
handed over.

That a getter answers with a plain value is taken from renaming: what is the
same under every identity of a view holds no view.

## Main definitions

* `Shape.defaultViews`: The views among the defaults of a record.

## Theorems

* `convert_views`: A conversion holds the view of its column, or none.
* `arguments_views`: The values that are handed over hold views of the columns,
  in order.
* `construct_views`: A record holds no other ones, apart from its defaults.
-/

namespace RowScope

namespace Value

theorem viewsOfEach_eq_flatMap (values : List Value) :
    viewsOfEach values = values.flatMap views := by
  induction values with
  | nil => rfl
  | cons v rest ih => rw [viewsOfEach, ih, List.flatMap_cons]

/-- A value that is the same under every identity holds no view. It is enough to
    rename each view to the next one, under which no view stays as it is. -/
theorem views_of_plain (v : Value) (plain : ∀ f, v.renamed f = v) : v.views = [] := by
  have hviews := views_renamed Nat.succ v
  rw [plain] at hviews
  rcases hv : v.views with _ | ⟨id, rest⟩
  · rfl
  · rw [hv, List.map_cons, List.cons.injEq] at hviews
    exact absurd hviews.1.symm (Nat.succ_ne_self id)

end Value

namespace Column

/-- What a getter reads holds no view, because it is read of the cell and a cell
    holds none. -/
theorem get_views (c : Column) (g : Getter) (v : Value) (hv : c.get g = .ok v) : v.views = [] := by
  refine v.views_of_plain ?_
  intro f
  have hplain := c.get_plain f g
  rw [hv, Except.map, Except.ok.injEq] at hplain
  exact hplain

/-- A conversion holds the view of its column, or none. The view is held where
    the column itself is asked for, and then only once, whatever layers are laid
    around; all other conversions make plain values. -/
theorem convert_views (c : Column) (t : Target) (v : Value) (hv : c.convert t = .ok v) :
    v.views.Sublist [c.id] := by
  have getter : ∀ g v, c.get g = .ok v → v.views.Sublist [c.id] := by
    intro g v hg
    rw [c.get_views g v hg]
    exact List.nil_sublist _
  revert v
  -- A conversion to alternatives tries them in order, so both functions are
  -- done at once.
  refine convert.induct (fun t => ∀ v, c.convert t = .ok v → v.views.Sublist [c.id])
    (fun ts => ∀ v, c.convertSome ts = .ok v → v.views.Sublist [c.id])
    ?_ ?_ ?_ ?_ ?_ ?_ ?_ ?_ ?_ ?_ ?_
    ?_ ?_ ?_ ?_ ?_ ?_ ?_ ?_ t
  · -- The kinds of values are read by getters, and the truth value of the
    -- integer.
    rw [convert]
    exact getter .int64
  · rw [convert]
    exact getter .double
  · rw [convert]
    exact getter .fullText
  · rw [convert]
    exact getter .content
  · rw [convert]
    exact getter .window
  · intro v hv
    rw [convert] at hv
    rcases hn : c.read Cell.int64 with f | n
    · rw [hn] at hv
      cases hv
    · rw [hn] at hv
      rw [← Except.ok.inj hv]
      exact List.nil_sublist _
  · rw [convert]
    exact getter .storageClass
  · intro v hv
    rw [convert] at hv
    rw [← Except.ok.inj hv]
    exact List.Sublist.refl _
  · intro v hv
    rw [convert] at hv
    rw [← Except.ok.inj hv]
    exact List.Sublist.refl _
  · intro v hv
    rw [convert] at hv
    cases hv
  · intro v hv
    rw [convert] at hv
    cases hv
  · intro typeName v hv
    rw [convert] at hv
    cases hv
  · intro name v hv
    rw [convert] at hv
    cases hv
  · intro name base hne ih
    rw [convert]
    · exact ih
    · exact hne
  · intro spelling alternatives hdecided ih v hv
    rw [convert, if_pos hdecided] at hv
    rcases hnull : c.isNull with f | null
    · rw [hnull] at hv
      cases hv
    · rw [hnull] at hv
      cases null with
      | true =>
          rw [← Except.ok.inj hv]
          exact List.nil_sublist _
      | false => exact ih v hv
  · intro spelling alternatives hopen v hv
    rw [convert, if_neg hopen] at hv
    cases hv
  · intro v hv
    rw [convertSome] at hv
    cases hv
  · intro rest ih
    rw [convertSome]
    exact ih
  · intro u tail hne ih
    rw [convertSome]
    · exact ih
    · exact hne

end Column

namespace Shape

/-- The views among the defaults of a record. -/
def defaultViews : Shape → List ViewId
  | fields _ fs => (fs.filterMap Field.default).flatMap Value.views
  | _ => []

/-- There is an annotation for each column. -/
theorem annotations_length (shape : Shape) (n : Nat) : (shape.annotations n).length = n := by
  cases shape with
  | fields name fs => rw [annotations_taken, List.length_map, List.length_range]
  | _ => exact List.length_replicate

/-- The values that are handed over hold views of the columns, in order, each at
    most once. Each value holds at most the view of its own column, so the views
    of all are what is left of the columns if those that were converted to plain
    values are dropped. -/
theorem arguments_views (shape : Shape) (columns : List Column) (values : List Value)
    (converted : shape.arguments columns = .ok values) :
    (values.flatMap Value.views).Sublist (columns.map Column.id) := by
  -- Each column comes with a target, whatever the targets are.
  have paired : ∀ (pairs : List (Column × Target)) (values : List Value),
      (pairs.mapM fun p => p.1.convert p.2) = .ok values →
        (values.flatMap Value.views).Sublist ((pairs.map Prod.fst).map Column.id) := by
    intro pairs
    induction pairs with
    | nil =>
        intro values hvalues
        rw [List.mapM_nil] at hvalues
        rw [← Except.ok.inj hvalues]
        exact List.Sublist.refl _
    | cons p rest ih =>
        intro values hvalues
        rw [List.mapM_cons] at hvalues
        rcases hp : p.1.convert p.2 with f | v
        · rw [hp] at hvalues
          exact nomatch hvalues
        · rcases hrest : rest.mapM fun p => p.1.convert p.2 with f | vs
          · rw [hp, hrest] at hvalues
            exact nomatch hvalues
          · rw [hp, hrest] at hvalues
            rw [← Except.ok.inj hvalues, List.flatMap_cons]
            exact (p.1.convert_views p.2 v hp).append (ih vs hrest)
  -- There are as many targets as columns, so pairing them drops none.
  have hzip := paired _ values converted
  rw [List.map_fst_zip (Nat.le_of_eq (shape.annotations_length columns.length).symm)] at hzip
  exact hzip

/-- The fields of a record hold what was handed over and the views of their
    defaults. If only others than the latter are looked at, these are the views
    that were handed over. Equality holds and not just inclusion, since every
    value has to find a field. -/
theorem fill_views (fs : List Field) (values : List Value) (held : List (Text × Value))
    (filled : Field.fill fs values = some held) (p : ViewId → Bool)
    (older : ∀ v ∈ (fs.filterMap Field.default).flatMap Value.views, p v = false) :
    (Value.viewsOfFields held).filter p = (values.flatMap Value.views).filter p := by
  induction fs generalizing values held with
  | nil =>
      cases values with
      | nil =>
          rw [← Option.some.inj filled]
          rfl
      | cons v rest => exact nomatch filled
  | cons f fs ih =>
      -- The defaults of the other fields are among those of all.
      have hrest : ∀ v ∈ (fs.filterMap Field.default).flatMap Value.views, p v = false := by
        intro v hv
        refine older v ?_
        rw [List.filterMap_cons]
        rcases f.default with _ | d
        · exact hv
        · rw [List.flatMap_cons]
          exact List.mem_append_right _ hv
      rcases Field.fill_cons_cases f fs values held filled with
        ⟨first, rest, others, rfl, hothers, ⟨-, v, rfl, rfl⟩ | ⟨-, rfl, hfirst⟩⟩
      · rw [Value.viewsOfFields, List.flatMap_cons, List.filter_append, List.filter_append,
          ih rest others hothers hrest]
      · -- The default holds nothing that is looked at.
        have hdefault : (first.2.views).filter p = [] := by
          rw [List.filter_eq_nil_iff]
          intro v hv
          rw [older v]
          · exact Bool.false_ne_true
          · rw [Field.byDefault] at hfirst
            rw [List.filterMap_cons]
            rcases hd : f.default with _ | d
            · rw [hd] at hfirst
              by_cases hp : f.isParameter = true
              · simp only [hp, if_true] at hfirst
                exact nomatch hfirst
              · simp only [hp] at hfirst
                rw [← Option.some.inj hfirst] at hv
                exact nomatch hv
            · rw [hd] at hfirst
              rw [← Option.some.inj hfirst] at hv
              rw [List.flatMap_cons]
              exact List.mem_append_left _ hv
        rcases first with ⟨name, d⟩
        rw [Value.viewsOfFields, List.filter_append, hdefault, List.nil_append,
          ih rest others hothers hrest]

/-- What is made of the values that are handed over holds no other views than
    these, apart from those of the defaults, and holds them in the same order. A
    scalar is made of the column and not of the values, but holds no view at
    all. -/
theorem construct_views (shape : Shape) (columns : List Column) (values : List Value)
    (value : Value)
    (made : shape.construct columns values = .ok value) (p : ViewId → Bool)
    (older : ∀ v ∈ shape.defaultViews, p v = false) :
    (value.views.filter p).Sublist (values.flatMap Value.views) := by
  cases shape with
  | columns =>
      rw [construct, Except.ok.injEq] at made
      rw [← made, Value.views, Value.viewsOfEach_eq_flatMap]
      exact List.filter_sublist
  | exactly n =>
      rw [construct] at made
      by_cases hn : values.length = n
      · rw [if_pos hn, Except.ok.injEq] at made
        rw [← made, Value.views, Value.viewsOfEach_eq_flatMap]
        exact List.filter_sublist
      · rw [if_neg hn] at made
        cases made
  | scalar s =>
      -- Neither a default nor what a getter reads has a view in it.
      have hnone : value.views = [] := by
        rcases columns with _ | ⟨c, _ | ⟨d, rest⟩⟩
        · rw [construct, Except.ok.injEq] at made
          rw [← made]
          cases s with
          | _ => rfl
        · exact c.get_views s.getter value made
        · cases made
      rw [hnone]
      exact List.nil_sublist _
  | sequence =>
      rw [construct] at made
      by_cases hempty : values.isEmpty = true
      · rw [if_pos hempty, Except.ok.injEq] at made
        rw [← made]
        exact List.nil_sublist _
      · rw [if_neg hempty] at made
        cases made
  -- Here the defaults come in, and the filter leaves their views out.
  | fields name fs =>
      rw [construct] at made
      rcases hfill : Field.fill fs values with _ | held
      · rw [hfill] at made
        cases made
      · rw [hfill, Except.ok.injEq] at made
        rw [← made, Value.views, fill_views fs values held hfill p older]
        exact List.filter_sublist

end Shape

end RowScope
