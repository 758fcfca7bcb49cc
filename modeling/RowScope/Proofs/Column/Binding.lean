import RowScope.Column.Record

/-!
# What Columns Are Bound To

A record is built by position, so the column at a place belongs to the parameter
that this place binds to, and should be converted by the annotation of just this
parameter. Fields that are given by name only take no place. The annotations
that a shape looks at are counted by another list, though, that of all
parameters, and the two lists are the same only as far as no parameter that is
given by name only stands among the first ones.

What ends up in a field is said by the fields alone: it is the value at the
place of the field, which is the number of positional fields before it, or the
default if the field has no place or there are not so many values.

## Main definitions

* `Field.bound`: What the column at a place should be converted to.
* `Field.taken`: What it is converted to.
* `Field.place`: The place that a field binds to.
* `Field.ending`: What a field holds, given the value at its place.

## Theorems

* `taken_eq_bound`: Places before the first parameter that is given by name only
  are bound right.
* `fill_held`: What ends up in a field.
* `bound_place`: The place of a field is bound to the field.
* `annotations_taken`, `arguments_taken`: A record converts each column to what
  its place takes.
-/

namespace RowScope

namespace Field

/-- What the column at a place should be converted to: the annotation of the
    parameter that the place binds to, or nothing but itself if there is no such
    parameter. -/
def bound (fs : List Field) (i : Nat) : Target :=
  (((fs.filter isPositional)[i]?).map target).getD .anything

/-- What the column at a place is converted to, which counts the parameters that
    are given by name only as well. -/
def taken (fs : List Field) (i : Nat) : Target :=
  (((fs.filter isParameter)[i]?).map target).getD .anything

/-- The place that the field at an index binds to, if it is positional. -/
def place (fs : List Field) (j : Nat) : Nat := (fs.take j).countP isPositional

/-- A parameter that is not given by name only is positional. This is the one
    condition by which the list that is counted and the list that is bound
    differ. -/
theorem isPositional_of_parameter (f : Field) (parameter : f.isParameter = true)
    (plain : f.keywordOnly = false) : f.isPositional = true := by
  rw [isPositional, parameter, plain]
  rfl

theorem taken_cons (f : Field) (fs : List Field) (i : Nat) :
    taken (f :: fs) i =
      if f.isParameter then (match i with | 0 => f.target | i + 1 => taken fs i)
      else taken fs i := by
  unfold taken
  rw [List.filter_cons]
  by_cases hf : f.isParameter = true
  · rw [if_pos hf, if_pos hf]
    cases i with
    | zero => rfl
    | succ i => rfl
  · rw [if_neg hf, if_neg hf]

theorem bound_cons (f : Field) (fs : List Field) (i : Nat) :
    bound (f :: fs) i =
      if f.isPositional then (match i with | 0 => f.target | i + 1 => bound fs i)
      else bound fs i := by
  unfold bound
  rw [List.filter_cons]
  by_cases hf : f.isPositional = true
  · rw [if_pos hf, if_pos hf]
    cases i with
    | zero => rfl
    | succ i => rfl
  · rw [if_neg hf, if_neg hf]

/-- As long as no parameter is given by name only, the places are bound right.
    The two lists run in step up to the first such parameter, which takes a
    place in one of them and none in the other; behind it they are shifted
    against each other, and nothing is said. -/
theorem taken_eq_bound (fs : List Field) (n : Nat)
    (plain : ∀ f ∈ (fs.filter isParameter).take n, f.keywordOnly = false) (i : Nat) (hi : i < n) :
    taken fs i = bound fs i := by
  induction fs generalizing n i with
  | nil => rfl
  | cons f fs ih =>
      rw [taken_cons, bound_cons]
      by_cases hf : f.isParameter = true
      · rw [List.filter_cons_of_pos hf] at plain
        cases n with
        | zero => exact absurd hi (Nat.not_lt_zero i)
        | succ n =>
            rw [List.take_succ_cons] at plain
            -- The first parameter takes the first place in both lists.
            have hpositional := f.isPositional_of_parameter hf (plain f List.mem_cons_self)
            rw [if_pos hf, if_pos hpositional]
            cases i with
            | zero => rfl
            | succ i =>
                exact ih n (fun g hg => plain g (List.mem_cons_of_mem f hg)) i
                  (Nat.lt_of_succ_lt_succ hi)
      · -- What is no parameter takes a place in neither list.
        have hpositional : ¬ f.isPositional = true := by
          intro hc
          rw [isPositional, Bool.and_eq_true] at hc
          exact hf hc.1
        rw [List.filter_cons_of_neg hf] at plain
        rw [if_neg hf, if_neg hpositional]
        exact ih n plain i hi

/-- What a field holds, given the value at its place, if there is one. -/
def ending (f : Field) (v : Option Value) : Option (Text × Value) :=
  match f.isPositional, v with
  | true, some v => some (f.name, v)
  | _, _ => f.byDefault

theorem ending_default (f : Field) (v : Option Value)
    (h : f.isPositional = false ∨ v = none) : f.ending v = f.byDefault := by
  rcases h with h | rfl
  · simp only [ending, h]
  · rcases hf : f.isPositional with _ | _
    · simp only [ending, hf]
    · simp only [ending, hf]

/-- A field takes the first value if it is positional and there is one, and else
    its default. The values that are left over go on to the other fields: the
    tail in the first case, and all of them in the second, where the field may
    have been passed over although values were there. -/
theorem fill_cons_cases (f : Field) (fs : List Field) (values : List Value)
    (held : List (Text × Value)) (filled : fill (f :: fs) values = some held) :
    ∃ first rest others, held = first :: others ∧ fill fs rest = some others ∧
      (f.isPositional = true ∧ (∃ v, values = v :: rest ∧ first = (f.name, v)) ∨
        (f.isPositional = false ∨ values = []) ∧ rest = values ∧ f.byDefault = some first) := by
  -- What is left of a field that has its default.
  have default : (do
        let held ← f.byDefault
        let others ← fill fs values
        return held :: others) = some held →
      ∃ first others, held = first :: others ∧ fill fs values = some others ∧
        f.byDefault = some first := by
    intro h
    simp only [Option.bind_eq_bind, Option.bind_eq_some_iff, Option.pure_def,
      Option.some.injEq] at h
    rcases h with ⟨first, hfirst, others, hothers, rfl⟩
    exact ⟨first, others, rfl, hothers, hfirst⟩
  -- A field that is not positional is passed by; a positional one looks at the
  -- values.
  rcases hf : f.isPositional with _ | _
  · simp only [fill, hf] at filled
    rcases default filled with ⟨first, others, hheld, hothers, hfirst⟩
    exact ⟨first, values, others, hheld, hothers, Or.inr ⟨Or.inl rfl, rfl, hfirst⟩⟩
  · cases values with
    | nil =>
        simp only [fill, hf] at filled
        rcases default filled with ⟨first, others, hheld, hothers, hfirst⟩
        exact ⟨first, [], others, hheld, hothers, Or.inr ⟨Or.inr rfl, rfl, hfirst⟩⟩
    | cons v rest =>
        simp only [fill, hf] at filled
        rcases Option.map_eq_some_iff.mp filled with ⟨others, hothers, rfl⟩
        exact ⟨_, rest, others, rfl, hothers, Or.inl ⟨rfl, v, rfl, rfl⟩⟩

/-- Every field of a record holds the value at its place, or its default. The
    induction is on the fields, for all values at once, as a positional field
    hands only the tail on; the place of a later field goes down by one in the
    same step, so both sides look at the same value. -/
theorem fill_held (fs : List Field) (values : List Value) (held : List (Text × Value))
    (filled : fill fs values = some held) (j : Nat) (f : Field) (hf : fs[j]? = some f) :
    held[j]? = f.ending values[place fs j]? := by
  induction fs generalizing values held j with
  | nil => exact nomatch hf
  | cons g fs ih =>
      rcases fill_cons_cases g fs values held filled with
        ⟨first, rest, others, rfl, hrest, ⟨hg, v, rfl, rfl⟩ | ⟨hg, rfl, hfirst⟩⟩
      · -- The first field takes a value, so the places behind it are one less.
        cases j with
        | zero =>
            rw [List.getElem?_cons_zero, Option.some.injEq] at hf
            subst hf
            simp only [place, List.take_zero, List.countP_nil, List.getElem?_cons_zero, ending, hg]
        | succ j =>
            rw [List.getElem?_cons_succ] at hf ⊢
            rw [ih rest others hrest j hf, place, place, List.take_succ_cons,
              List.countP_cons_of_pos hg, List.getElem?_cons_succ]
      · cases j with
        | zero =>
            rw [List.getElem?_cons_zero, Option.some.injEq] at hf
            subst hf
            rw [List.getElem?_cons_zero, ← hfirst, ending_default]
            rcases hg with hg | rfl
            · exact Or.inl hg
            · exact Or.inr rfl
        | succ j =>
            rw [List.getElem?_cons_succ] at hf ⊢
            rw [ih rest others hrest j hf]
            -- Nothing is at any place of no values.
            rcases hg with hg | rfl
            · rw [place, place, List.take_succ_cons,
                List.countP_cons_of_neg (by rw [hg]; exact Bool.false_ne_true)]
            · rfl

/-- The place of a positional field binds to the annotation of this field, so
    binding by place loses nothing that was written at the field. -/
theorem bound_place (fs : List Field) (j : Nat) (f : Field) (hf : fs[j]? = some f)
    (positional : f.isPositional = true) : bound fs (place fs j) = f.target := by
  induction fs generalizing j with
  | nil => exact nomatch hf
  | cons g fs ih =>
      cases j with
      | zero =>
          rw [List.getElem?_cons_zero, Option.some.injEq] at hf
          subst hf
          rw [bound_cons, if_pos positional]
          rfl
      | succ j =>
          rw [List.getElem?_cons_succ] at hf
          rw [place, List.take_succ_cons, bound_cons]
          -- A positional field in front takes a place from both sides, and
          -- another one takes none.
          by_cases hg : g.isPositional = true
          · rw [if_pos hg, List.countP_cons_of_pos hg]
            exact ih j hf
          · rw [if_neg hg, List.countP_cons_of_neg hg]
            exact ih j hf

end Field

/-! ### The values that are handed over -/

/-- Something is made for one index after the other, or an index is the first
    one that fails. In the second case the indices before it have been made,
    which is what tells how many columns were converted when a conversion
    fails. -/
theorem mapM_range {α : Type} (f : Nat → Except Fault α) (n : Nat) :
    (∃ ys, (List.range n).mapM f = .ok ys ∧ ys.length = n ∧
      ∀ i < n, ∃ y, ys[i]? = some y ∧ f i = .ok y) ∨
    ∃ i < n, ∃ fault, (List.range n).mapM f = .error fault ∧ f i = .error fault ∧
      ∀ j < i, ∃ y, f j = .ok y := by
  -- The indices are appended one by one, so the first failure stays the first
  -- one.
  induction n with
  | zero => exact Or.inl ⟨[], rfl, rfl, fun i hi => absurd hi (Nat.not_lt_zero i)⟩
  | succ n ih =>
      rw [List.range_succ, List.mapM_append, List.mapM_cons, List.mapM_nil]
      rcases ih with ⟨ys, hys, hlength, hall⟩ | ⟨i, hi, fault, hfault, hfirst⟩
      · rw [hys]
        rcases hn : f n with fault | y
        · refine Or.inr ⟨n, Nat.lt_succ_self n, fault, rfl, hn, ?_⟩
          intro j hj
          rcases hall j hj with ⟨y, -, hy⟩
          exact ⟨y, hy⟩
        · refine Or.inl ⟨ys ++ [y], rfl, by rw [List.length_append, hlength]; rfl, ?_⟩
          intro i hi
          by_cases hin : i = n
          · subst hin
            exact ⟨y, by rw [← hlength]; exact List.getElem?_concat_length, hn⟩
          · rcases hall i (by omega) with ⟨z, hz, hi⟩
            refine ⟨z, ?_, hi⟩
            rw [List.getElem?_append_left (by omega), hz]
      · rw [hfault]
        exact Or.inr ⟨i, Nat.lt_succ_of_lt hi, fault, rfl, hfirst⟩

namespace Shape

/-- The annotations of a record are those that are taken, one for each place.
    They are cut off if there are more parameters than columns and filled up if
    there are fewer, so what is to be compared depends on the place alone, and
    the lists are compared place by place. -/
theorem annotations_taken (name : Text) (fs : List Field) (n : Nat) :
    (fields name fs).annotations n = (List.range n).map (Field.taken fs) := by
  refine List.ext_getElem? ?_
  intro i
  rw [annotations, List.getElem?_map, List.getElem?_append, List.length_take, List.length_map]
  by_cases hi : i < n
  · rw [List.getElem?_range hi, Option.map_some, Field.taken]
    -- There is a parameter at this place, or the list is filled up here.
    by_cases hp : i < (fs.filter Field.isParameter).length
    · rw [if_pos (by omega), List.getElem?_take_of_lt hi, List.getElem?_map,
        List.getElem?_eq_getElem hp]
      rfl
    · rw [if_neg (by omega), List.getElem?_replicate_of_lt (by omega),
        List.getElem?_eq_none (Nat.le_of_not_lt hp)]
      rfl
  · have hrange : (List.range n)[i]? = none :=
      List.getElem?_eq_none (by rw [List.length_range]; omega)
    rw [hrange, if_neg (by omega), List.getElem?_eq_none (by rw [List.length_replicate]; omega)]
    rfl

/-- Each column is converted to what its place takes. The columns are drawn by
    their indices, so the list of the columns and the list of the annotations
    are one list of indices. -/
theorem arguments_taken (name : Text) (fs : List Field) (n : Nat) (drawn : Nat → Column) :
    (fields name fs).arguments ((List.range n).map drawn) =
      (List.range n).mapM fun i => (drawn i).convert (Field.taken fs i) := by
  rw [arguments, List.length_map, List.length_range, annotations_taken, List.zip_map',
    List.mapM_map]
  rfl

end Shape

end RowScope
