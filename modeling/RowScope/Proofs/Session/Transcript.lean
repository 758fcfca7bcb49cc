import RowScope.Proofs.Session.Wire

/-!
# What Failures Come To

How an operation answers to the failures of the calls that it makes. A failure
of a call that was made for the caller's sake is *raised*: the operation is
over, and the failure is its answer. So at most one failure is raised by an
operation, and a fault that speaks for the engine is the raised failure or none.
All other faults are the library's own, or the caller's. They arise while
columns are looked up, read, and made into records, without any call.

A failure that is not raised is either *ignored*, as that of a cursor that
cannot be closed, or *warned* of, as that of a pragma.

## Main definitions

* `Fault.isEngines`: A fault speaks for the engine.
* `Event.raised?`, `Event.warning?`: What a failure comes to.
* `Reports`: An answer, by the failures that were raised.
* `Session.Yields`: What an operation calls, and its answer.

## Theorems

* `get_own`, `convert_own`, `build_own`: Reading a column speaks for no engine.
* `step_yields`, `script_yields`, `queryFirst_yields`: The operations that call.
* `perform_yields`, `perform_follows`: All commands that neither open nor close
  the database.
-/

namespace RowScope

/-- A fault that speaks for the engine, as an error of the library or
    unchanged. -/
def Fault.isEngines : Fault → Bool
  | engine _ => true
  | access (.engine _) => true
  | _ => false

/-- An answer that is no fault of the engine's. -/
def IsOwn {α : Type} (answer : Except Fault α) : Prop :=
  ∀ f, answer = .error f → f.isEngines = false

namespace IsOwn

theorem ok {α : Type} (a : α) : IsOwn (.ok a) := fun _ hf => nomatch hf

theorem error {α : Type} {f : Fault} (hf : f.isEngines = false) :
    IsOwn (.error f : Except Fault α) := fun _ h => Except.error.inj h ▸ hf

/-- What is composed of two parts speaks for no engine if neither of them
    does. -/
theorem bind {α β : Type} {x : Except Fault α} {f : α → Except Fault β} (hx : IsOwn x)
    (hf : ∀ a, IsOwn (f a)) : IsOwn (x >>= f) := by
  rcases x with fault | a
  · exact error (hx fault rfl)
  · exact hf a

theorem map {α β : Type} {x : Except Fault α} (f : α → β) (hx : IsOwn x) : IsOwn (x.map f) := by
  rcases x with fault | a
  · exact error (hx fault rfl)
  · exact ok (f a)

theorem ofCellReading {α : Type} (x : Except CellFault α) : IsOwn (ofCellReading x) := by
  rcases x with fault | a
  · exact error rfl
  · exact ok a

end IsOwn

/-! ### Reading columns -/

namespace Column

/-- Nothing of a column speaks for the engine. -/
structure Own (c : Column) : Prop where
  cell : IsOwn c.cell
  name : IsOwn c.name

section

variable {c : Column} (hc : c.Own)

include hc

theorem read_own {α : Type} (reading : Cell → Except CellFault α) : IsOwn (c.read reading) :=
  hc.cell.bind fun cell => .ofCellReading (reading cell)

theorem described_own : IsOwn c.described := by
  unfold described
  simp only []
  split
  · exact (read_own hc _).bind fun _ => .ok _
  · exact .ok _

theorem get_own (g : Getter) : IsOwn (c.get g) := by
  cases g with
  | name => exact hc.name.bind fun _ => .ok _
  | described => exact (described_own hc).bind fun _ => .ok _
  | index => exact .ok _
  | text => exact IsOwn.bind (read_own hc _) fun _ => .ok _
  | _ => exact (read_own hc _).bind fun _ => .ok _

theorem isNull_own : IsOwn c.isNull := (read_own hc _).bind fun _ => .ok _

/-- A conversion reads the cell, or refuses what it is asked for. No engine is
    in either. -/
theorem convert_own (t : Target) : IsOwn (c.convert t) := by
  -- A conversion to alternatives tries them in order, so both functions are
  -- done at once.
  refine convert.induct (fun t => IsOwn (c.convert t)) (fun ts => IsOwn (c.convertSome ts)) ?_ ?_ ?_
    ?_ ?_ ?_ ?_ ?_ ?_ ?_ ?_ ?_ ?_ ?_ ?_ ?_ ?_ ?_ ?_ t
  · -- The kinds of values are read, and what has no conversion is refused.
    rw [convert]
    exact get_own hc .int64
  · rw [convert]
    exact get_own hc .double
  · rw [convert]
    exact get_own hc .fullText
  · rw [convert]
    exact get_own hc .content
  · rw [convert]
    exact get_own hc .window
  · rw [convert]
    exact (read_own hc _).bind fun _ => .ok _
  · rw [convert]
    exact get_own hc .storageClass
  · rw [convert]
    exact .ok _
  · rw [convert]
    exact .ok _
  · rw [convert]
    exact .error rfl
  · rw [convert]
    exact .error rfl
  · intro typeName
    rw [convert]
    exact .error rfl
  · intro name
    rw [convert]
    exact .error rfl
  · intro name base hne ih
    rw [convert]
    · exact ih
    · exact hne
  · intro spelling alternatives hdecided ih
    rw [convert, if_pos hdecided]
    refine (isNull_own hc).bind fun null => ?_
    cases null with
    | true => exact .ok _
    | false => exact ih
  · intro spelling alternatives hopen
    rw [convert, if_neg hopen]
    exact .error rfl
  · rw [convertSome]
    exact .error rfl
  · intro rest ih
    rw [convertSome]
    exact ih
  · intro u tail hne ih
    rw [convertSome]
    · exact ih
    · exact hne

end

end Column

theorem mapM_own {α β : Type} (f : α → Except Fault β) (xs : List α) (hf : ∀ x ∈ xs, IsOwn (f x)) :
    IsOwn (xs.mapM f) := by
  induction xs with
  | nil => exact .ok _
  | cons x rest ih =>
      rw [List.mapM_cons]
      refine (hf x List.mem_cons_self).bind fun y => ?_
      exact (ih fun z hz => hf z (List.mem_cons_of_mem x hz)).bind fun _ => .ok _

/-- Building a record reads columns, or refuses what it is given, such as values
    that find no field. -/
theorem build_own (shape : Shape) (columns : List Column) (hcolumns : ∀ c ∈ columns, c.Own) :
    IsOwn (shape.build columns) := by
  refine IsOwn.bind (mapM_own _ _ fun p hp => ?_) fun values => ?_
  · exact Column.convert_own (hcolumns p.1 (List.of_mem_zip hp).1) p.2
  · -- The values are there. By its shape a constructor takes them, or refuses
    -- their number; only a scalar reads again, the one column that it has.
    unfold Shape.construct
    split
    · exact .ok _
    · split
      · exact .ok _
      · exact .error rfl
    · split
      · exact .ok _
      · exact Column.get_own (hcolumns _ List.mem_cons_self) _
      · exact .error rfl
    · split
      · exact .ok _
      · exact .error rfl
    · split
      · exact .ok _
      · exact .error rfl

/-! ### Handles and statements -/

namespace Handle

theorem cellAt_own (h : Handle) (index : Int) : IsOwn (h.cellAt index) := by
  unfold cellAt
  split
  · exact .error rfl
  · split
    · exact .ok _
    · exact .error rfl

theorem nameAt_own (h : Handle) (index : Int) : IsOwn (h.nameAt index) := by
  unfold nameAt
  split
  · exact .error rfl
  · split
    · exact .ok _
    · exact .error rfl

theorem column_own (h : Handle) (id : ViewId) (index : Int) : (h.column id index).Own :=
  ⟨h.cellAt_own index, h.nameAt_own index⟩

end Handle

namespace Session

theorem column?_own (s : Session) (v : ViewId) (c : Column) (hc : s.column? v = some c) :
    c.Own := by
  simp only [column?, Option.bind_eq_bind, Option.bind_eq_some_iff] at hc
  rcases hc with ⟨view, -, handle, -, heq⟩
  rw [← Option.some.inj heq]
  exact handle.column_own v view.index

theorem checkIndex_own (handle : Handle) (index : Int) : IsOwn (checkIndex handle index) := by
  unfold checkIndex
  split
  · exact .error rfl
  · exact .ok _

theorem checkWidth_own (handle : Handle) (count : Int) : IsOwn (checkWidth handle count) := by
  unfold checkWidth
  split
  · exact .error rfl
  · split
    · exact .error rfl
    · split
      · exact .error rfl
      · exact .ok _

theorem placeOf_own (id : StatementId) (st : Statement) (handle : Handle) (name : Text)
    (s : Session) : IsOwn (s.placeOf id st handle name).1 := by
  unfold placeOf
  split
  · exact .error rfl
  · split
    · exact .ok _
    · exact .error rfl

/-- The number of a column that was found is checked. -/
theorem checked_own (handle : Handle) (i : Int) (t : Session) :
    IsOwn (match checkIndex handle i with
      | .error f => ((.error f, t) : Outcome Int)
      | .ok () => (.ok i, t)).1 := by
  have hcheck := checkIndex_own handle i
  generalize checkIndex handle i = o at hcheck ⊢
  rcases o with f | ok
  · exact .error (hcheck f rfl)
  · exact .ok i

/-- A column that is not located is missing for the library's own reasons. -/
theorem locate_own (id : StatementId) (st : Statement) (handle : Handle) (key : Key)
    (s : Session) : IsOwn (s.locate id st handle key).1 := by
  unfold locate
  split
  · exact .error rfl
  · cases key with
    | index i => exact checked_own handle i s
    | name name =>
        have hplace := placeOf_own id st handle name s
        simp only []
        generalize s.placeOf id st handle name = o at hplace ⊢
        rcases o with ⟨f | n, t⟩
        · exact .error (hplace f rfl)
        · exact checked_own handle n t

theorem columnName_own (id : StatementId) (index : Int) (s : Session) :
    IsOwn (s.columnName id index) := by
  unfold columnName
  split
  · exact .error rfl
  · rename_i handle _
    have hcheck := checkIndex_own handle index
    split
    · rename_i f heq
      exact .error (hcheck f heq)
    · exact handle.nameAt_own index

/-- A question is never answered by the engine. It is about the database, a
    statement, a handle or a view, and answered from what the session has of
    them. -/
theorem ask_own (q : Query) (s : Session) : IsOwn (s.ask q) := by
  have statement : ∀ id f, IsOwn (s.askStatement id f) := by
    intro id f
    unfold askStatement
    split
    · exact .error rfl
    · exact .ok _
  have handle : ∀ h f, (∀ x, IsOwn (f x)) → IsOwn (s.askHandle h f) := by
    intro h f hf
    unfold askHandle
    split
    · exact .error rfl
    · exact hf _
  have view : ∀ v f, (∀ c : Column, c.Own → IsOwn (f c)) → IsOwn (s.askView v f) := by
    intro v f hf
    unfold askView
    split
    · exact .error rfl
    · rename_i c hc
      exact hf c (s.column?_own v c hc)
  -- Most are answered by a field. The few that can fail read a view, a name or
  -- a cell, and each of these has its own lemma.
  cases q with
  | path => exact .ok _
  | isOpen => exact .ok _
  | databaseText => exact .ok _
  | totalChanges =>
      refine IsOwn.map _ ?_
      unfold totalChanges
      split
      · exact .error rfl
      · exact .ok _
  | columnName id index => exact (columnName_own id index s).map _
  | get v g => exact view v _ fun c hc => c.get_own hc g
  | textOr v default => exact view v _ fun c hc => (Column.read_own hc _).map _
  | convert v t => exact view v _ fun c hc => c.convert_own hc t
  | written v => exact view v _ fun c hc => (c.get_own hc _).bind fun _ => .ok _
  | handleColumnName h index => exact handle h _ fun x => (x.nameAt_own index).map _
  | raw h index p =>
      exact handle h _ fun x => (x.cellAt_own index).bind fun cell => .ofCellReading _
  | statementSql id => exact statement id _
  | statementHasRow id => exact statement id _
  | isDone id => exact statement id _
  | isClosed id => exact statement id _
  | statementColumnCount id => exact statement id _
  | statementText id => exact statement id _
  | handleSql h => exact handle h _ fun _ => .ok _
  | shares h => exact handle h _ fun _ => .ok _
  | isFinalized h => exact handle h _ fun _ => .ok _
  | handleHasRow h => exact handle h _ fun _ => .ok _
  | handleRow h => exact handle h _ fun _ => .ok _
  | handleColumnCount h => exact handle h _ fun _ => .ok _
  | handleColumnNames h => exact handle h _ fun _ => .ok _
  | handleText h => exact handle h _ fun _ => .ok _

end Session

/-! ### Failures -/

namespace Event

/-- The failure that ends an operation. That of a cursor that cannot be closed
    never does, and that of a pragma only if it is no failure of the
    database. -/
def raised? (event : Event) : Option EngineError :=
  match event.call with
  | .finalize _ => none
  | .disconnect _ => none
  | .pragma _ => event.failure.filter fun x => !x.isDatabaseFailure
  | _ => event.failure

/-- The warning of a pragma that the database at this path has refused. -/
def warning? (path : Text) (event : Event) : Option Diagnostic :=
  match event.call with
  | .pragma sql => (event.failure.filter EngineError.isDatabaseFailure).map fun x =>
      .pragmaIgnored sql path x.message
  | _ => none

end Event

/-- The failures that end an operation which comes to these events. -/
def raised (events : List Event) : List EngineError := events.filterMap Event.raised?

/-- An answer speaks for the engine if and only if a failure was raised, which
    is then the only one. -/
inductive Reports {α : Type} : List EngineError → Except Fault α → Prop
  | own {answer : Except Fault α} (own : IsOwn answer) : Reports [] answer
  | raised (x : EngineError) : Reports [x] (.error (.ofEngine x))

namespace Reports

theorem refused {α : Type} {f : Fault} (hf : f.isEngines = false) :
    Reports [] (.error f : Except Fault α) := .own (.error hf)

theorem ok {α : Type} (a : α) : Reports [] (.ok a : Except Fault α) := .own (.ok a)

/-- An operation that was not ended by a failure has raised none. -/
theorem none_of_ok {α : Type} {xs : List EngineError} {a : α}
    (h : Reports xs (.ok a : Except Fault α)) : xs = [] := by
  cases h with
  | own _ => rfl

/-- A fault is the same fault whatever would have been answered in its place. -/
theorem of_error {α β : Type} {xs : List EngineError} {f : Fault}
    (h : Reports xs (.error f : Except Fault α)) : Reports xs (.error f : Except Fault β) := by
  cases h with
  | own own => exact .own (.error (own f rfl))
  | raised x => exact .raised x

theorem map {α β : Type} {xs : List EngineError} {answer : Except Fault α} (f : α → β)
    (h : Reports xs answer) : Reports xs (answer.map f) := by
  cases h with
  | own own => exact .own (own.map f)
  | raised x => exact .raised x

end Reports

theorem raised_append (first last : List Event) :
    raised (first ++ last) = raised first ++ raised last :=
  List.filterMap_append

/-- That a cursor cannot be closed is never raised. So shares can be given back
    at any point without a change of the answer. -/
theorem raised_finalize (e : Engine) (w : Wire) (ks : List Call)
    (hks : ∀ k ∈ ks, ∃ h, k = .finalize h) : raised (w.transcript e ks) = [] := by
  induction ks generalizing w with
  | nil => rfl
  | cons k rest ih =>
      rcases hks k List.mem_cons_self with ⟨h, rfl⟩
      exact ih (w.after e (.finalize h)) fun k' hk' => hks k' (List.mem_cons_of_mem _ hk')

/-- The commands that may change which connection is in use. -/
def Command.connects : Command → Bool
  | openDatabase => true
  | enter => true
  | closeDatabase => true
  | _ => false

namespace Session

/-- An operation calls certain things, and answers by what was raised. -/
def Yields {α : Type} (e : Engine) (s : Session) (o : Outcome α) : Prop :=
  ∃ ks, s.Follows e o.2 ks ∧ (∀ k ∈ ks, k.isWork = true) ∧
    Reports (raised (s.wire.transcript e ks)) o.1

namespace Yields

variable {α β : Type} {e : Engine} {s t u : Session}

/-- An operation that calls nothing. -/
theorem own {o : Outcome α} (hf : s.Follows e o.2 []) (ho : IsOwn o.1) : s.Yields e o :=
  ⟨[], hf, fun _ hk => absurd hk List.not_mem_nil, .own ho⟩

/-- Another answer in place of the value. The operation has raised nothing, so
    the answer must not speak for the engine. -/
theorem instead {a : α} {answer : Except Fault β} (h : s.Yields e (.ok a, t))
    (ho : IsOwn answer) : s.Yields e (answer, t) := by
  rcases h with ⟨ks, hf, hwork, hreports⟩
  refine ⟨ks, hf, hwork, ?_⟩
  rw [hreports.none_of_ok]
  exact .own ho

theorem of_error {f : Fault} (h : s.Yields e ((.error f, t) : Outcome α)) :
    s.Yields e ((.error f, t) : Outcome β) := by
  rcases h with ⟨ks, hf, hwork, hreports⟩
  exact ⟨ks, hf, hwork, hreports.of_error⟩

/-- An operation that goes on where another one has ended. The first part has
    raised nothing, or there would be nothing to go on with, so what is raised
    is raised by the second part. -/
theorem andThen {a : α} {o : Outcome β} (h : s.Yields e (.ok a, t)) (ho : t.Yields e o) :
    s.Yields e o := by
  rcases h with ⟨first, hf1, hwork1, hreports1⟩
  rcases ho with ⟨last, hf2, hwork2, hreports2⟩
  refine ⟨first ++ last, hf1.trans hf2,
    fun k hk => (List.mem_append.mp hk).elim (hwork1 k) (hwork2 k), ?_⟩
  rw [Wire.transcript_append, raised_append, hreports1.none_of_ok, List.nil_append, ← hf1.wire]
  exact hreports2

/-- Shares that are given back in the end change no answer. -/
theorem trailed {answer : Except Fault α} (h : s.Yields e (answer, t)) (ht : t.Trails e u) :
    s.Yields e (answer, u) := by
  rcases h with ⟨first, hf1, hwork, hreports⟩
  rcases ht with ⟨last, hf2, hends⟩
  refine ⟨first ++ last, hf1.trans hf2, fun k hk => ?_, ?_⟩
  · rcases List.mem_append.mp hk with hk | hk
    · exact hwork k hk
    · rcases hends k hk with ⟨h, rfl⟩
      rfl
  · rw [Wire.transcript_append, raised_append, raised_finalize e _ last hends, List.append_nil]
    exact hreports

end Yields

/-- An operation that does nothing but give back shares. -/
theorem Trails.yields {α : Type} {e : Engine} {s t : Session} (ht : s.Trails e t)
    {answer : Except Fault α} (ho : IsOwn answer) : s.Yields e (answer, t) :=
  Yields.trailed (t := s) (.own (.refl e s) ho) ht

/-! ### Steps -/

theorem setRow_follows (e : Engine) (h : HandleId) (row : Option Row) (s : Session) :
    s.Follows e (s.setRow h row) [] :=
  onHandle_follows e s h (fun x => { x with row := row }) (fun _ => rfl)

theorem stepFailed_follows (e : Engine) (h : HandleId) (x : EngineError) (s : Session) :
    s.Follows e (s.stepFailed h x).2 [] := by
  unfold stepFailed
  split
  · exact setRow_follows e h none s
  · exact .refl e s

theorem arrive_follows (e : Engine) (id : StatementId) (h : HandleId) (fetched : Option Row)
    (s : Session) : s.Follows e (Session.arrive id h fetched s).2 [] := by
  cases fetched with
  | none =>
      exact (setRow_follows e h none s).then (onStatement_follows e _ id _)
  | some row => exact setRow_follows e h (some row) s

/-- The first half of a step fails as its call does. A statement that has
    started calls nothing here; one that has not is executed, and the failure of
    the execution is the only one. -/
theorem begin_follows (e : Engine) (id : StatementId) (st : Statement) (handle : Handle)
    (s : Session) (hh : s.handles[st.handle]? = some handle) :
    ∃ ks, s.Follows e (s.begin e id st).2 ks ∧ (∀ k ∈ ks, k.isWork = true) ∧
      raised (s.wire.transcript e ks) = (failure? (s.begin e id st).1).toList := by
  rcases hstarted : st.started with _ | _
  · have hnoted := noted_follows e s (.executing st.sql) rfl
    rcases executeCursor_follows e st.handle handle st.sql st.params
      (s.noted (.executing st.sql)) hh with ⟨hfollows, hmeet⟩
    refine ⟨[.execute st.handle st.sql st.params], ?_, fun k hk => ?_, ?_⟩
    · rcases hexec : (s.noted (.executing st.sql)).executeCursor e st.handle handle st.sql
        st.params with ⟨answer, t⟩
      rw [hexec] at hfollows
      rw [begin_unstarted e s id st handle hstarted hh answer t hexec]
      rcases answer with x | ok
      · exact hnoted.trans hfollows
      · exact (hnoted.trans hfollows).then (onStatement_follows e t id _)
    · rw [List.mem_singleton.mp hk]
      rfl
    · -- One call, so what was raised is what it met.
      have hraised : raised (s.wire.transcript e [.execute st.handle st.sql st.params]) =
          (s.wire.meet? e (.execute st.handle st.sql st.params)).toList := by
        simp only [Wire.transcript, raised, List.filterMap_cons, Event.raised?]
        rcases s.wire.meet? e (.execute st.handle st.sql st.params) with _ | x
        · rfl
        · rfl
      rw [hraised, show s.wire.meet? e _ = _ from hmeet]
      rcases hexec : (s.noted (.executing st.sql)).executeCursor e st.handle handle st.sql
        st.params with ⟨answer, t⟩
      rw [begin_unstarted e s id st handle hstarted hh answer t hexec]
      rcases answer with x | ok
      · rfl
      · rfl
  · rw [begin_started e s id st hstarted]
    exact ⟨[], .refl e s, fun _ hk => absurd hk List.not_mem_nil, rfl⟩

/-- A failure that ends a step is its answer, as an error of the library if it
    is one of the database. -/
theorem Yields.failed {e : Engine} {s t : Session} {ks : List Call} {x : EngineError}
    (hf : s.Follows e t ks) (hwork : ∀ k ∈ ks, k.isWork = true)
    (hraised : raised (s.wire.transcript e ks) = [x]) (h : HandleId) :
    s.Yields e (t.stepFailed h x) := by
  refine ⟨ks, hf.then (stepFailed_follows e h x t), hwork, ?_⟩
  rw [hraised]
  unfold stepFailed
  exact .raised x

/-- A step calls an execution, unless the statement has started, and then a
    fetch, unless this has failed; and it answers by the failure of either. The
    two halves are put together by what has been raised in all: if the first one
    has raised something there is no second one. -/
theorem step_yields (e : Engine) (id : StatementId) (s : Session) (separate : s.Separate) :
    s.Yields e (s.step e id) := by
  rcases hst : s.statements[id]? with _ | st
  · simp only [step, hst]
    exact .own (.refl e s) (.error rfl)
  · rcases separate.found s id st hst with ⟨handle, found⟩
    have hh := ((statement?_eq_some_iff s id st handle).mp found).2
    rcases holding : st.holding with _ | _
    · rw [step_closed e s id st hst holding]
      exact .own (.refl e s) (.error rfl)
    · rcases undone : st.done with _ | _
      · rcases begin_follows e id st handle s hh with ⟨first, hfirst, hwork, hraised⟩
        have hhandle := (begin_leads e id st s ⟨st, hst, holding, rfl⟩).handle_kept st.handle
          handle hh
        rcases hbegin : s.begin e id st with ⟨x | ok, t⟩
        · rw [hbegin] at hfirst hraised
          rw [step_of_begin_error e hst holding undone hbegin]
          exact .failed hfirst hwork hraised st.handle
        · rw [hbegin] at hfirst hraised hhandle
          rcases hhandle with ⟨handle', hh', -⟩
          rcases fetchCursor_follows e st.handle handle' t hh' with ⟨hlast, hmeet⟩
          have hall := hfirst.trans hlast
          -- Both halves call on the cursor of the statement only.
          have hallwork : ∀ k ∈ first ++ [.fetch st.handle], k.isWork = true := by
            intro k hk
            rcases List.mem_append.mp hk with hk | hk
            · exact hwork k hk
            · rw [List.mem_singleton.mp hk]
              rfl
          -- What the execution has raised is nothing, so it is for the fetch to
          -- raise something.
          have hmet : raised (s.wire.transcript e (first ++ [.fetch st.handle])) =
              (failure? (t.fetchCursor st.handle).1).toList := by
            rw [Wire.transcript_append, raised_append, hraised, ← hfirst.wire, ← hmeet]
            simp only [Wire.transcript, raised, List.filterMap_cons, Event.raised?]
            rcases t.wire.meet? e (.fetch st.handle) with _ | x
            · rfl
            · rfl
          rcases hfetch : t.fetchCursor st.handle with ⟨x | fetched, u⟩
          · rw [hfetch] at hall hmet
            rw [step_of_fetch_error e hst holding undone hbegin hfetch]
            exact .failed hall hallwork hmet st.handle
          · rw [hfetch] at hall hmet
            rw [step_of_fetch_ok e hst holding undone hbegin hfetch]
            refine ⟨_, hall.then (arrive_follows e id st.handle fetched u), hallwork, ?_⟩
            rw [hmet]
            cases fetched with
            | none => exact .ok false
            | some row => exact .ok true
      · rw [step_completed e s id st hst holding undone]
        exact .own (.refl e s) (.error rfl)

/-- A run without rows is a step, and refuses a row for a reason of its own. -/
theorem exec_yields (e : Engine) (id : StatementId) (s : Session) (separate : s.Separate) :
    s.Yields e (s.exec e id) := by
  have hstep := step_yields e id s separate
  unfold exec
  generalize s.step e id = o at hstep ⊢
  rcases o with ⟨f | more, t⟩
  · exact hstep.of_error
  · cases more with
    | true => exact hstep.instead (.error rfl)
    | false =>
        simp only []
        split
        · exact hstep.instead (.error rfl)
        · exact hstep.instead (.ok _)

theorem reset_yields (e : Engine) (id : StatementId) (params : Option Params) (s : Session) :
    s.Yields e (s.reset id params) := by
  unfold reset
  split
  · exact .own (.refl e s) (.error rfl)
  · rename_i st _
    split
    · exact .own (.refl e s) (.error rfl)
    · exact .own (((noted_follows e s (.resetting st.sql) rfl).then
        (setRow_follows e st.handle none _)).then (onStatement_follows e _ id _))
        (.ok _)

/-! ### Readings -/

theorem getColumn_yields (e : Engine) (id : StatementId) (key : Key) (s : Session) :
    s.Yields e (s.getColumn id key) := by
  unfold getColumn
  split
  · exact .own (.refl e s) (.error rfl)
  · rename_i st handle _
    have hlocate := locate_follows e id st handle key s
    have hown := locate_own id st handle key s
    generalize s.locate id st handle key = o at hlocate hown ⊢
    rcases o with ⟨f | i, t⟩
    · exact .own hlocate (.error (hown f rfl))
    · exact .own (hlocate.then (newView_follows e st.handle i t)) (.ok _)

theorem columnIndex_yields (e : Engine) (id : StatementId) (name : Text) (s : Session) :
    s.Yields e (s.columnIndex id name) := by
  unfold columnIndex
  split
  · exact .own (.refl e s) (.error rfl)
  · rename_i st handle _
    refine .own ?_ (placeOf_own id st handle name s)
    rw [placeOf_state]
    exact placesOf_follows e id st handle s

theorem isColumnNull_yields (e : Engine) (id : StatementId) (key : Key) (s : Session) :
    s.Yields e (s.isColumnNull id key) := by
  unfold isColumnNull
  split
  · exact .own (.refl e s) (.error rfl)
  · rename_i st handle _
    have hlocate := locate_follows e id st handle key s
    have hown := locate_own id st handle key s
    generalize s.locate id st handle key = o at hlocate hown ⊢
    rcases o with ⟨f | i, t⟩
    · exact .own hlocate (.error (hown f rfl))
    · exact .own hlocate ((handle.cellAt_own i).bind fun c =>
        (IsOwn.ofCellReading c.storageClass).bind fun _ => .ok _)

theorem readOnce_yields {α : Type} (e : Engine) (v : ViewId) (read : Column → Except Fault α)
    (hread : ∀ c : Column, c.Own → IsOwn (read c)) (s : Session) :
    s.Yields e (s.readOnce v read) := by
  unfold readOnce
  split
  · exact .own (.refl e s) (.error rfl)
  · rename_i c hc
    exact (releaseView_trails e v s).yields (hread c (s.column?_own v c hc))

theorem peek_yields (e : Engine) (id : StatementId) (key : Key)
    (read : Column → Except Fault Value) (hread : ∀ c : Column, c.Own → IsOwn (read c))
    (s : Session) : s.Yields e (s.peek id key read) := by
  have hget := getColumn_yields e id key s
  unfold peek
  generalize s.getColumn id key = o at hget ⊢
  rcases o with ⟨f | v, t⟩
  · exact hget.of_error
  · exact hget.andThen (readOnce_yields e v read hread t)

theorem storedValue_own (c : Column) (hc : c.Own) : IsOwn (storedValue c) :=
  (Column.read_own hc _).bind fun _ => hc.cell.bind fun _ => .ok _

theorem cellsAt_yields (e : Engine) (id : StatementId) (is : List Nat) (s : Session) :
    s.Yields e (s.cellsAt id is) := by
  induction is generalizing s with
  | nil => exact .own (.refl e s) (.ok _)
  | cons i rest ih =>
      have hpeek := peek_yields e id (.index i) storedValue storedValue_own s
      unfold cellsAt
      generalize s.peek id (.index i) storedValue = o at hpeek ⊢
      rcases o with ⟨f | value, t⟩
      · exact hpeek.of_error
      · have hrest := ih t
        simp only []
        generalize t.cellsAt id rest = o at hrest ⊢
        rcases o with ⟨f | values, u⟩
        · exact hpeek.andThen hrest.of_error
        · exact hpeek.andThen (hrest.instead (.ok _))

theorem cells_yields (e : Engine) (id : StatementId) (s : Session) :
    s.Yields e (s.cells id) := by
  unfold cells
  split
  · exact .own (.refl e s) (.error rfl)
  · rename_i handle _
    have hcells := cellsAt_yields e id (List.range handle.columnCount) s
    generalize s.cellsAt id (List.range handle.columnCount) = o at hcells ⊢
    rcases o with ⟨f | values, t⟩
    · exact hcells.of_error
    · exact hcells.instead (.ok _)

theorem buildRecord_yields (e : Engine) (shape : Shape) (ids : List ViewId) (s : Session) :
    s.Yields e (s.buildRecord shape ids) := by
  have hbuild := build_own shape (ids.filterMap s.column?) fun c hc => by
    rcases List.mem_filterMap.mp hc with ⟨v, -, hv⟩
    exact s.column?_own v c hv
  unfold buildRecord
  split
  · rename_i f heq
    exact (releaseViews_trails e ids s).yields (.error (hbuild f heq))
  · exact (releaseViews_trails e _ s).yields (.ok _)

/-- A record is made of columns, without any call but those that give back its
    views. -/
theorem getColumns_yields (e : Engine) (id : StatementId) (shape : Shape) (count : Int)
    (s : Session) : s.Yields e (s.getColumns id shape count) := by
  unfold getColumns
  split
  · exact .own (.refl e s) (.error rfl)
  · rename_i st handle _
    have hwidth := checkWidth_own handle count
    split
    · rename_i f heq
      exact .own (.refl e s) (.error (hwidth f heq))
    · rename_i n _
      have hmade : s.Yields e ((.ok (), (s.newViews st.handle (List.range n)).2) : Outcome Unit) :=
        .own (newViews_follows e st.handle (List.range n) s) (.ok _)
      exact hmade.andThen (buildRecord_yields e shape _ _)

/-! ### Scripts and queries -/

/-- A script is one call, and answers by its failure. The changes that it has
    made before are counted nevertheless. -/
theorem script_yields (e : Engine) (sql : Text) (s : Session) : s.Yields e (s.script e sql) := by
  rcases hopen : s.database.connection with _ | c
  · simp only [script, hopen]
    exact .own (.refl e s) (.error rfl)
  · -- The changes are counted whether or not the script fails, so the state is
    -- the same in both cases and only the answer differs.
    have hcall : s.Follows e (((s.called (.script sql)).asked (.script sql)).onConnection c
        fun x => { x with changes := x.changes + (e.script s.past sql).1 }) [.script sql] :=
      .call rfl rfl rfl rfl (wire_onConnection _ c
        (fun x => { x with changes := x.changes + (e.script s.past sql).1 }) (fun _ => rfl))
    have hwork : ∀ k ∈ [Call.script sql], k.isWork = true := fun k hk => by
      rw [List.mem_singleton.mp hk]
      rfl
    have hraised : raised (s.wire.transcript e [.script sql]) =
        (e.script s.past sql).2.toList := by
      simp only [Wire.transcript, raised, List.filterMap_cons, Event.raised?, Wire.meet?]
      rw [show s.wire.past = s.past from rfl]
      rcases (e.script s.past sql).2 with _ | x
      · rfl
      · rfl
    simp only [script, hopen]
    rw [show (s.called (.script sql)).past = s.past from rfl]
    rcases hfailure : (e.script s.past sql).2 with _ | x
    · rw [hfailure] at hraised
      exact ⟨_, hcall, hwork, by rw [hraised]; exact .ok _⟩
    · rw [hfailure] at hraised
      exact ⟨_, hcall, hwork, by rw [hraised]; exact .raised x⟩

theorem prepare_yields (e : Engine) (sql : Sql) (params : Params) (s : Session) :
    s.Yields e (s.prepare sql params) := by
  rcases hopen : s.database.connection with _ | c
  · simp only [prepare, hopen]
    exact .own (.refl e s) (.error rfl)
  · simp only [prepare, hopen]
    exact .own (newStatement_follows e c sql params s hopen) (.ok _)

/-- A query is a step with something before and behind it that raises nothing:
    preparing, reading a column, and closing. -/
theorem queryFirst_yields (e : Engine) (sql : Sql) (params : Params) (s : Session)
    (separate : s.Separate) : s.Yields e (s.queryFirst e sql params) := by
  have hprepare := prepare_yields e sql params s
  have hseparate := separate.leads (prepare_leads (fun _ => True) trivial sql params s)
  unfold queryFirst
  generalize s.prepare sql params = o at hprepare hseparate ⊢
  rcases o with ⟨f | id, t⟩
  · exact hprepare.of_error
  · have hstep := step_yields e id t hseparate
    simp only []
    generalize t.step e id = o at hstep ⊢
    rcases o with ⟨f | more, u⟩
    · exact hprepare.andThen (hstep.of_error.trailed (closeStatement_trails e id u))
    · have hget := getColumn_yields e id (.index 0) u
      exact hprepare.andThen (hstep.andThen (hget.trailed (closeStatement_trails e id _)))

theorem tableExists_yields (e : Engine) (name : Text) (s : Session) (separate : s.Separate) :
    s.Yields e (s.tableExists e name) := by
  have hquery := queryFirst_yields e tableQuery (.positional [.text name]) s separate
  unfold tableExists
  generalize s.queryFirst e tableQuery (.positional [.text name]) = o at hquery ⊢
  rcases o with ⟨f | v, t⟩
  · exact hquery.of_error
  · exact hquery.andThen (readOnce_yields e v _
      (fun c hc => (Column.read_own hc _).bind fun _ => .ok _) t)

theorem lastInsertRowid_yields (e : Engine) (s : Session) (separate : s.Separate) :
    s.Yields e (s.lastInsertRowid e) := by
  have hquery := queryFirst_yields e rowidQuery .empty s separate
  unfold lastInsertRowid
  generalize s.queryFirst e rowidQuery .empty = o at hquery ⊢
  rcases o with ⟨f | v, t⟩
  · exact hquery.of_error
  · exact hquery.andThen (readOnce_yields e v _ (fun c hc => Column.read_own hc _) t)

/-! ### Commands -/

/-- A reply without an object. -/
theorem Yields.plainly {α : Type} {e : Engine} {s : Session} {o : Outcome α} (value : α → Value)
    (h : s.Yields e o) :
    s.Yields e ((Session.plainly value o).1.answer, (Session.plainly value o).2) := by
  rcases h with ⟨ks, hf, hwork, hreports⟩
  rw [plainly_answer, plainly_state]
  exact ⟨ks, hf, hwork, hreports.map value⟩

theorem Yields.making {α : Type} {e : Engine} {s : Session} {o : Outcome α} (value : α → Value)
    (made : α → Made) (h : s.Yields e o) :
    s.Yields e ((Session.making value made o).1.answer, (Session.making value made o).2) := by
  rcases o with ⟨f | a, t⟩
  · exact h.of_error
  · exact h.instead (.ok _)

theorem withHandle_yields (e : Engine) (h : HandleId) (value : Value) (f : Session → Session)
    (s : Session) (hf : s.Trails e (f s)) :
    s.Yields e ((s.withHandle h value f).1.answer, (s.withHandle h value f).2) := by
  unfold withHandle
  split
  · exact hf.yields (.ok value)
  · exact .own (.refl e s) (.error rfl)

theorem drop_trails (e : Engine) (made : Made) (s : Session) : s.Trails e (s.drop made) := by
  cases made with
  | statement id => exact closeStatement_trails e id s
  | view v => exact releaseView_trails e v s
  | handle h => exact .refl e s
  | record vs => exact releaseViews_trails e vs s

/-- A command that does not concern the connection answers by what was raised,
    unless it uses a cursor directly. One case for each command, as each
    operation has been shown to; what a command adds is a way of telling the
    value, which no failure goes through. -/
theorem perform_yields (e : Engine) (c : Command) (s : Session) (separate : s.Separate)
    (apart : c.connects = false) (indirect : ∀ h, c ≠ .executeHandle h) :
    s.Yields e ((s.perform e c).1.answer, (s.perform e c).2) := by
  cases c with
  | openDatabase => cases apart
  | enter => cases apart
  | closeDatabase => cases apart
  | script sql => exact (script_yields e sql s).plainly _
  | tableExists name => exact (tableExists_yields e name s separate).plainly _
  | lastInsertRowid => exact (lastInsertRowid_yields e s separate).plainly _
  | prepare sql params => exact (prepare_yields e sql params s).making _ _
  | queryFirst sql params => exact (queryFirst_yields e sql params s separate).making _ _
  | prepareHandle sql =>
      refine Yields.making _ _ ?_
      rcases hopen : s.database.connection with _ | k
      · simp only [prepareHandle, hopen]
        exact .own (.refl e s) (.error rfl)
      · simp only [prepareHandle, hopen]
        exact .own (.aside (s.wire_newHandle k sql hopen) rfl rfl rfl
          (Or.inr (by rw [hopen]; exact Option.some_ne_none k))) (.ok _)
  | step id => exact (step_yields e id s separate).plainly _
  | exec id => exact (exec_yields e id s separate).plainly _
  | reset id params => exact (reset_yields e id params s).plainly _
  | closeStatement id => exact (closeStatement_trails e id s).yields (.ok _)
  | getColumn id key => exact (getColumn_yields e id key s).making _ _
  | peek id key g => exact (peek_yields e id key _ (fun c hc => c.get_own hc g) s).plainly _
  | cells id => exact (cells_yields e id s).plainly _
  | columnIndex id name => exact (columnIndex_yields e id name s).plainly _
  | isColumnNull id key => exact (isColumnNull_yields e id key s).plainly _
  | getColumns id shape count => exact (getColumns_yields e id shape count s).making _ _
  | releaseView v => exact (releaseView_trails e v s).yields (.ok _)
  | share h =>
      exact withHandle_yields e h _ _ s (.of_follows (onHandle_follows e s h
        (fun x => { x with shares := x.shares + 1 }) (fun _ => rfl)))
  | release h => exact withHandle_yields e h _ _ s (release_trails e h s)
  | setRow h row => exact withHandle_yields e h _ _ s (.of_follows (setRow_follows e h row s))
  | executeHandle h => exact absurd rfl (indirect h)
  | viewOf h index =>
      simp only [perform]
      split
      · exact Yields.making _ _ (.own (newView_follows e h index s) (.ok _))
      · exact .own (.refl e s) (.error rfl)
  | drop made => exact (drop_trails e made s).yields (.ok _)
  | query q => exact .own (.refl e s) (ask_own q s)

/-- A direct use of a cursor makes a call like any other, whatever becomes of
    its failure. The failure reaches the caller as it is, also if it is one of
    the database. -/
theorem executeHandle_follows (e : Engine) (h : HandleId) (s : Session) :
    ∃ ks, s.Follows e (s.executeHandle e h).2 ks ∧ ∀ k ∈ ks, k.isWork = true := by
  unfold executeHandle
  rcases hh : s.handles[h]? with _ | handle
  · exact ⟨[], .refl e s, fun _ hk => absurd hk List.not_mem_nil⟩
  · have hexec := (executeCursor_follows e h handle handle.sql .empty s hh).1
    refine ⟨[.execute h handle.sql .empty], ?_, fun k hk => ?_⟩
    · simp only []
      generalize s.executeCursor e h handle handle.sql .empty = o at hexec ⊢
      rcases o with ⟨x | ok, t⟩
      · exact hexec
      · exact hexec
    · rw [List.mem_singleton.mp hk]
      rfl

/-- The engine's side follows every command that does not concern the
    connection, by calls that are work. -/
theorem perform_follows (e : Engine) (c : Command) (s : Session) (separate : s.Separate)
    (apart : c.connects = false) :
    ∃ ks, s.Follows e (s.perform e c).2 ks ∧ ∀ k ∈ ks, k.isWork = true := by
  by_cases direct : ∃ h, c = .executeHandle h
  · rcases direct with ⟨h, rfl⟩
    simp only [perform, plainly_state]
    exact executeHandle_follows e h s
  · rcases perform_yields e c s separate apart (fun h hc => direct ⟨h, hc⟩) with
      ⟨ks, hf, hwork, -⟩
    exact ⟨ks, hf, hwork⟩

end Session

end RowScope
