import RowScope.Proofs.Session.Stability

/-!
# Columns by Name

A statement looks a name up in a table of first places, which is made from the
names of the result when a lookup first finds a result, and is kept from then
on. Lookups thus answer for the result that was there at that time. As long as
the statement always has the same columns this makes no difference; but neither
a reset nor another execution takes the table away, so if the columns change the
lookups do not follow, while the names themselves, and their number, do.

Whether a lookup is right can be told for each name: it is exactly if the name
has the same first place in both results, or none in either.

## Main definitions

* `firstPlace`: The first place of a name in a result, if it has one.
* `Locates`: An answer says where a name first occurs, or that it does not.
* `Session.Remembers`: Names that a statement has found in its result before.

## Theorems

* `locates_iff`: There is one such answer.
* `firstPlaces_find`: The table of first places gives the first place of each
  name.
* `columnIndex_eq`: A lookup answers for the names of the table, or of the
  result if there is none.
* `reachable_remembers`: The table was made from an earlier result.
* `getColumn_name`: Reading by name is reading by the index that the lookup
  answers.
* `columnIndex_remembered`: A lookup answers for remembered names, and is right
  if these agree with the result about the name.
-/

namespace RowScope

/-- The first place of a name in a result, if it has one. -/
def firstPlace (names : List Text) (name : Text) : Except Fault Nat :=
  match names.idxOf? name with
  | some i => .ok i
  | none => .error (.access (.columnName name))

/-- An answer says where a name first occurs in a result, or that it does
    not. -/
def Locates (names : List Text) (name : Text) (answer : Except Fault Nat) : Prop :=
  (∃ i, answer = .ok i ∧ names[i]? = some name ∧ ∀ j, j < i → names[j]? ≠ some name) ∨
    answer = .error (.access (.columnName name)) ∧ name ∉ names

/-- There is one such answer. -/
theorem locates_iff (names : List Text) (name : Text) (answer : Except Fault Nat) :
    Locates names name answer ↔ answer = firstPlace names name := by
  unfold Locates firstPlace
  rcases hfirst : names.idxOf? name with _ | i
  · rw [List.idxOf?_eq_none_iff] at hfirst
    constructor
    · rintro (⟨i, -, hi, -⟩ | ⟨heq, -⟩)
      · exact absurd (List.mem_of_getElem? hi) hfirst
      · exact heq
    · exact fun heq => Or.inr ⟨heq, hfirst⟩
  · rcases List.idxOf?_eq_some_iff.mp hfirst with ⟨hlt, hi, hleast⟩
    have hsome : names[i]? = some name := List.getElem?_eq_some_iff.mpr ⟨hlt, hi⟩
    have hbefore : ∀ j, j < i → names[j]? ≠ some name := fun j hj hc =>
      hleast j hj (List.getElem?_eq_some_iff.mp hc).2
    constructor
    · rintro (⟨k, rfl, hk, hkleast⟩ | ⟨-, hnot⟩)
      · -- Two first places are the same one.
        rcases Nat.lt_trichotomy k i with hlt' | heq | hgt
        · exact absurd hk (hbefore k hlt')
        · rw [heq]
        · exact absurd hsome (hkleast i hgt)
      · exact absurd (List.mem_of_getElem? hsome) hnot
    · exact fun heq => Or.inl ⟨i, heq, hsome, hbefore⟩

/-- What a table holds for a name after more places were added to it: what it
    held before, or else the first of the new ones. -/
theorem foldl_places_find (l seen : List (Text × Nat)) (name : Text) :
    (l.foldl (fun seen p => if seen.any (·.1 == p.1) then seen else seen ++ [p]) seen).find?
        (·.1 == name) = (seen.find? (·.1 == name)).or (l.find? (·.1 == name)) := by
  -- The table grows along the list, so the claim is about any table to begin
  -- with.
  induction l generalizing seen with
  | nil => rw [List.foldl_nil, List.find?_nil, Option.or_none]
  | cons p rest ih =>
      rw [List.foldl_cons, ih, List.find?_cons]
      by_cases hany : seen.any (·.1 == p.1) = true
      · rw [if_pos hany]
        by_cases hp : (p.1 == name) = true
        · -- The name is in the table already, so that the new place is passed
          -- over.
          rcases List.any_eq_true.mp hany with ⟨q, hq, heq⟩
          rw [beq_iff_eq] at heq hp
          rcases hfind : seen.find? (·.1 == name) with _ | found
          · exact absurd (by rw [heq, hp, BEq.rfl]) (List.find?_eq_none.mp hfind q hq)
          · rw [hfind, Option.some_or, Option.some_or]
        · simp only [hp]
      · rw [if_neg hany, List.find?_append, List.find?_cons, List.find?_nil]
        by_cases hp : (p.1 == name) = true
        · simp only [hp, Option.or_assoc, Option.some_or]
        · simp only [hp, Option.or_none]

/-- In a numbered list the first entry for a name has its first place, counted
    from where the numbering begins. -/
theorem zipIdx_find (names : List Text) (name : Text) (n : Nat) :
    (names.zipIdx n).find? (·.1 == name) = (names.idxOf? name).map fun i => (name, i + n) := by
  -- The numbering of the tail starts one further on.
  induction names generalizing n with
  | nil => rfl
  | cons x rest ih =>
      rw [List.zipIdx_cons, List.find?_cons, List.idxOf?_cons]
      by_cases hx : (x == name) = true
      · rw [if_pos hx, beq_iff_eq.mp hx]
        simp only [BEq.rfl, Option.map_some, Nat.zero_add]
      · rw [if_neg hx, Option.map_map]
        simp only [hx, ih]
        rcases rest.idxOf? name with _ | i
        · rfl
        · simp only [Option.map_some, Function.comp_apply, Option.some.injEq, Prod.mk.injEq,
            true_and]
          omega

/-- The table of first places gives the first place of each name. -/
theorem firstPlaces_find (names : List Text) (name : Text) :
    (firstPlaces names).find? (·.1 == name) = (names.idxOf? name).map fun i => (name, i) := by
  rw [firstPlaces, foldl_places_find, List.find?_nil, Option.none_or, zipIdx_find]
  rfl

namespace Session

/-- A lookup answers for the names from which the table was made, or for those
    of the result if there is no table. -/
theorem columnIndex_eq (s : Session) (id : StatementId) (st : Statement) (handle : Handle)
    (found : s.statement? id = some (st, handle)) (names : List Text)
    (hnames : st.places = none ∧ names = handle.columnNames ∨ st.places = some (firstPlaces names))
    (name : Text) : (s.columnIndex id name).1 = firstPlace names name := by
  rw [columnIndex, found]
  simp only [placeOf, placesOf]
  rcases hnames with ⟨hnone, rfl⟩ | hsome
  · rw [hnone]
    -- Without columns no table is made, and no name is found.
    rcases handle.columnNames with _ | ⟨first, rest⟩
    · rfl
    · simp only [firstPlaces_find, firstPlace]
      rcases (first :: rest).idxOf? name with _ | i
      · rfl
      · rfl
  · rw [hsome]
    simp only [firstPlaces_find, firstPlace]
    rcases names.idxOf? name with _ | i
    · rfl
    · rfl

/-- Reading by name is reading by the index that the lookup answers, if there is
    a row. Beside the answer the lookup may fill the table, and reading by index
    does not. -/
theorem getColumn_name (s : Session) (id : StatementId) (st : Statement) (handle : Handle)
    (found : s.statement? id = some (st, handle)) (hrow : handle.hasRow = true) (name : Text) :
    (s.getColumn id (.name name)).1 =
      match (s.columnIndex id name).1 with
      | .error f => .error f
      | .ok i => (s.getColumn id (.index i)).1 := by
  have hviews := (placesOf_beside id st handle s).2
  have hstate := placeOf_state id st handle name s
  simp only [columnIndex, getColumn, found, locate, hrow, Bool.not_true, Bool.false_eq_true,
    if_false]
  -- The lookup may fill the table, which the index does not; the views are the
  -- same.
  rcases hp : s.placeOf id st handle name with ⟨f | i, t⟩
  · rfl
  · rw [hp] at hstate
    simp only []
    rcases checkIndex handle i with f | ok
    · rfl
    · rw [← hstate] at hviews
      exact congrArg (fun views : List View => Except.ok views.length) hviews

/-! ### Remembered names -/

/-- Names that a statement remembers: earlier in the run these were the names of
    its result, and it looked one up in them while it had no table yet. -/
def Remembers (e : Engine) (s : Session) (id : StatementId) (names : List Text) : Prop :=
  ∃ u c cs st handle, Reachable e (fun _ => True) u ∧ s = (u.run e (c :: cs)).2 ∧
    c.searched? = some id ∧ u.statement? id = some (st, handle) ∧ st.places = none ∧
    handle.columnNames = names ∧ names ≠ []

theorem run_concat (e : Engine) (cs : List Command) (c : Command) (s : Session) :
    (s.run e (cs ++ [c])).2 = ((s.run e cs).2.perform e c).2 := by
  induction cs generalizing s with
  | nil => rfl
  | cons d rest ih => exact ih (s.perform e d).2

theorem Remembers.after {e : Engine} {s : Session} {id : StatementId} {names : List Text}
    (hr : s.Remembers e id names) (c : Command) : (s.perform e c).2.Remembers e id names := by
  rcases hr with ⟨u, d, cs, st, handle, hu, hrun, hsearched, found, hnone, hnames, hne⟩
  refine ⟨u, d, cs ++ [c], st, handle, hu, ?_, hsearched, found, hnone, hnames, hne⟩
  rw [hrun]
  exact (run_concat e (d :: cs) c u).symm

/-- A statement that was not there before was prepared, and has a table only if
    that was filled. -/
theorem Leads.places_new {P : Touch → Prop} {s t : Session} (hl : s.Leads P t) (id : StatementId)
    (hnew : s.statements[id]? = none) (st : Statement) (hst : t.statements[id]? = some st) :
    P .prepare ∧ (st.places = none ∨ P (.places id)) := by
  induction hl generalizing st with
  | refl =>
      rw [hnew] at hst
      exact nomatch hst
  | @tail u w _ hm ih =>
      rcases hm with ⟨a, ha, m⟩
      rcases hu : u.statements[id]? with _ | st1
      · -- The statement was made by this move.
        rcases m.owners a u w with ⟨hmap, -⟩ | ⟨rfl, -, -⟩
        · have hget := congrArg (fun l : List HandleId => l[id]?) hmap
          simp only [List.getElem?_map, hu, hst, Option.map_some, Option.map_none,
            reduceCtorEq] at hget
        · cases m with
          | prepare connection sql params =>
              rcases of_getElem?_concat _ _ _ _ hst with ⟨-, rfl⟩ | hold
              · exact ⟨ha, Or.inl rfl⟩
              · rw [hu] at hold
                exact nomatch hold
      · -- It was there before this move, and if its table is new then this move
        -- has filled it.
        rcases ih st1 hu with ⟨hprepare, hplaces⟩
        rcases m.statement_kept a u w id st1 hu with ⟨st2, hst2, -, -, hkept⟩
        rw [hst, Option.some.injEq] at hst2
        refine ⟨hprepare, ?_⟩
        by_cases hfill : P (.places id)
        · exact Or.inr hfill
        · rw [hst2, hkept (Or.inl (fun heq => hfill (by rw [← heq]; exact ha)))]
          exact hplaces

/-- A table is filled with the names of the result, as long as the cursor is
    left alone. The guard of the move that fills a table says that it was empty,
    so the first filling is the only one. -/
theorem Leads.places_filled {P : Touch → Prop} {s t : Session} (hl : s.Leads P t)
    (id : StatementId) (st : Statement) (handle : Handle)
    (found : s.statement? id = some (st, handle)) (empty : st.places = none)
    (hcursor : ¬ P (.cursor st.handle)) :
    ∃ st', t.statements[id]? = some st' ∧
      (st'.places = none ∨
        st'.places = some (firstPlaces handle.columnNames) ∧ handle.columnNames ≠ []) := by
  rcases (statement?_eq_some_iff s id st handle).mp found with ⟨hst, hh⟩
  induction hl with
  | refl => exact ⟨st, hst, Or.inl empty⟩
  | @tail u w hu hm ih =>
      rcases hm with ⟨a, ha, m⟩
      rcases ih with ⟨st1, hst1, hplaces1⟩
      rcases m.statement_kept a u w id st1 hst1 with ⟨st2, hst2, -, -, hkept⟩
      refine ⟨st2, hst2, ?_⟩
      by_cases hfill : a = .places id ∧ st1.places = none
      · rcases hfill with ⟨rfl, hnone⟩
        cases m with
        | @places _ _ st3 handle3 found3 _ names =>
            rcases (statement?_eq_some_iff u id st3 handle3).mp found3 with ⟨hst3, hh3⟩
            -- It is still the same handle, and its cursor has the same names.
            rcases Leads.statement_kept hu id st hst with ⟨st4, hst4, hown, -⟩
            rcases Leads.handle_kept hu st.handle handle hh with ⟨handle4, hh4, hcolumns, -⟩
            rw [hst3, Option.some.injEq] at hst4
            rw [hst4, hown, hh4, Option.some.injEq] at hh3
            have hsame : handle3.columnNames = handle.columnNames := by
              rw [Handle.columnNames, ← hh3, hcolumns hcursor, Handle.columnNames]
            have hmodify := getElem?_modify_of_some u.statements
              (fun st => { st with places := some (firstPlaces handle3.columnNames) }) id id st3
              hst3
            rw [if_pos rfl] at hmodify
            exact Or.inr ⟨by rw [← Option.some.inj (hmodify.symm.trans hst2), hsame],
              by rw [← hsame]; exact names⟩
      · have hkeep : st2.places = st1.places := by
          refine hkept ?_
          by_cases ha' : a = .places id
          · exact Or.inr (fun hc => hfill ⟨ha', hc⟩)
          · exact Or.inl ha'
        rw [hkeep]
        exact hplaces1

/-- A command that looks names up uses no cursor. -/
theorem searched_unused (c : Command) (id : StatementId) (hc : c.searched? = some id) (s : Session)
    (h : HandleId) : ¬ c.Uses s h := by
  rintro (⟨id', hmoved, -⟩ | rfl)
  · cases c with
    | step _ => exact nomatch hc
    | exec _ => exact nomatch hc
    | reset _ _ => exact nomatch hc
    | _ => exact nomatch hmoved
  · exact nomatch hc

/-- A table was made from names of an earlier result. Looking back along the
    run, there is a command that has found a result and no table; nothing that
    came after it has changed the table. -/
theorem reachable_remembers (e : Engine) (s : Session) (hs : Reachable e (fun _ => True) s)
    (id : StatementId) (st : Statement) (hst : s.statements[id]? = some st)
    (places : List (Text × Nat)) (hplaces : st.places = some places) :
    ∃ names, places = firstPlaces names ∧ s.Remembers e id names := by
  induction hs generalizing st places with
  | start path config here => exact nomatch hst
  | @perform s c hs _ ih =>
      have hleads := perform_leads e c s
      rcases hold : s.statements[id]? with _ | st0
      · -- No command both makes a statement and looks a name up.
        rcases hleads.places_new id hold st hst with ⟨hprepare, hnone | hsearched⟩
        · rw [hplaces] at hnone
          exact nomatch hnone
        · exact nomatch (show c.searched? = none from hprepare).symm.trans hsearched
      · rcases hleads.statement_kept id st0 hold with ⟨st1, hst1, -, -, hkept⟩
        rw [hst, Option.some.injEq] at hst1
        -- Either there was no table, and this command is the lookup that filled
        -- it, or the table is the one from before.
        rcases hp0 : st0.places with _ | places0
        · by_cases hsearched : c.searched? = some id
          · have hlt := (reachable_separate e _ s hs).2 st0.handle
              (List.mem_map_of_mem (List.mem_of_getElem? hold))
            have found := (statement?_eq_some_iff s id st0 _).mpr
              ⟨hold, List.getElem?_eq_getElem hlt⟩
            have hcursor : ¬ c.touches s (.cursor st0.handle) := by
              rintro (huses | hle)
              · exact searched_unused c id hsearched s st0.handle huses
              · exact Nat.not_lt.mpr hle hlt
            rcases hleads.places_filled id st0 _ found hp0 hcursor with
              ⟨st2, hst2, hnone | ⟨hsome, hne⟩⟩
            · rw [← Option.some.inj (hst.symm.trans hst2), hplaces] at hnone
              exact nomatch hnone
            · rw [← Option.some.inj (hst.symm.trans hst2), hplaces, Option.some.injEq] at hsome
              exact ⟨_, hsome, s, c, [], st0, _, hs, rfl, hsearched, found, hp0, rfl, hne⟩
          · have hnone := hkept (Or.inl hsearched)
            rw [← hst1, hplaces, hp0] at hnone
            exact nomatch hnone
        · have hsame := hkept (Or.inr (by rw [hp0]; exact Option.some_ne_none places0))
          rw [← hst1, hplaces, hp0, Option.some.injEq] at hsame
          rcases ih st0 hold places0 hp0 with ⟨names, hnames, hr⟩
          exact ⟨names, by rw [hsame, hnames], hr.after c⟩

/-- A lookup locates the name in the names that the statement remembers, and in
    those of its result if it does not remember any. It is right about the
    result if and only if the name has the same first place in both. Reading by
    a name is reading by the index that the lookup answers.

    Nothing is said of how the remembered names and those of the result are
    related, because nothing relates them: the table stays when the statement is
    reset and executed again. -/
theorem columnIndex_remembered (e : Engine) (s : Session) (hs : Reachable e (fun _ => True) s)
    (id : StatementId) (st : Statement) (handle : Handle)
    (found : s.statement? id = some (st, handle)) :
    ∃ names, (st.places = none ∧ names = handle.columnNames ∨ s.Remembers e id names) ∧
      ∀ name, Locates names name (s.columnIndex id name).1 ∧
        (Locates handle.columnNames name (s.columnIndex id name).1 ↔
          firstPlace names name = firstPlace handle.columnNames name) ∧
        (handle.hasRow = true → (s.getColumn id (.name name)).1 =
          match (s.columnIndex id name).1 with
          | .error f => .error f
          | .ok i => (s.getColumn id (.index i)).1) := by
  have hnames : ∃ names, (st.places = none ∧ names = handle.columnNames ∨
      s.Remembers e id names) ∧ ∀ name, (s.columnIndex id name).1 = firstPlace names name := by
    rcases hp : st.places with _ | places
    · exact ⟨handle.columnNames, Or.inl ⟨rfl, rfl⟩, fun name =>
        columnIndex_eq s id st handle found _ (Or.inl ⟨hp, rfl⟩) name⟩
    · have hst := ((statement?_eq_some_iff s id st handle).mp found).1
      rcases reachable_remembers e s hs id st hst places hp with ⟨names, rfl, hr⟩
      exact ⟨names, Or.inr hr, fun name =>
        columnIndex_eq s id st handle found names (Or.inr hp) name⟩
  rcases hnames with ⟨names, hwhich, heq⟩
  refine ⟨names, hwhich, fun name => ⟨?_, ?_, fun hrow => ?_⟩⟩
  · exact (locates_iff names name _).mpr (heq name)
  · rw [locates_iff, heq name]
  · exact getColumn_name s id st handle found hrow name

end Session

/-- The name of a column. -/
def nameA : Text := [CodePoint.ofChar 'a']

/-- The name of another column. -/
def nameB : Text := [CodePoint.ofChar 'b']

/-- An engine whose table gets other columns after the first execution. -/
def Engine.altered : Engine where
  connect _ _ := none
  pragma _ _ := none
  script _ _ := (0, none)
  execute past _ _ :=
    .ok ⟨some [if past.length ≤ 1 then nameA else nameB], [.ok [.integer 0]], -1, 0⟩

namespace Session

/-- A program that looks a name up, and executes the statement again. -/
def relooking : List Command :=
  [.openDatabase, .prepare (.text []) .empty, .step 0, .columnIndex 0 nameA, .reset 0 none, .step 0]

/-- The session in which the result has the second name only. -/
def relooked : Session := (unopened.run .altered relooking).2

/-- The name of the only column is not found, and the name that is found is none
    of the result. -/
theorem columnIndex_relooked :
    ∃ st handle, relooked.statement? 0 = some (st, handle) ∧ handle.hasRow = true ∧
      handle.columnNames = [nameB] ∧
      ¬ Locates handle.columnNames nameB (relooked.columnIndex 0 nameB).1 ∧
      ¬ Locates handle.columnNames nameA (relooked.columnIndex 0 nameA).1 := by
  refine ⟨_, _, rfl, rfl, rfl, fun hc => ?_, fun hc => ?_⟩
  · exact nomatch (locates_iff _ _ _).mp hc
  · exact nomatch (locates_iff _ _ _).mp hc

/-- The lookups go on answering for the first name. -/
theorem columnIndex_remembered_relooked :
    ∃ names, relooked.Remembers .altered 0 names ∧
      ∀ name, Locates names name (relooked.columnIndex 0 name).1 := by
  rcases columnIndex_remembered .altered relooked (reachable_run .altered _ relooking unopened
    (.start [] .standard ⟨.root, []⟩) (fun _ _ => trivial)) 0 _ _ rfl with
    ⟨names, ⟨hnone, -⟩ | hr, hall⟩
  · exact nomatch hnone
  · exact ⟨names, hr, fun name => (hall name).1⟩

end Session

end RowScope
