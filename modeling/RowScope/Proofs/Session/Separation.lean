import RowScope.Proofs.Session.Parallel
import RowScope.Proofs.Session.Stability

/-!
# Statements Do Not Interfere

Several statements of one database are used in turns, they or their views or
their handles. What is seen of one of them is then the same as if the others
were left alone: what its commands answer, in which condition they leave it, and
what they demand of the engine. That holds also if two statements have the same
SQL, and if one is closed or its handle ends while another one has a row.

A command is meant for a statement, and names views by their numbers. That is
the only way to say that the same is done in two runs, since the identities of
views depend on the views of others. For the same reason the answers are seen
with views by their numbers.

The engine must not remember, for it is the one thing that all statements share:
an execution for one statement may change a table that is read for another one.

## Main definitions

* `Command.renamed`, `Reply.renamed`: Commands and replies under other
  identities of views.
* `Command.concerns`: A command is about a statement, its handle or its views.
* `World.condition`: The condition of a statement.
* `Sight`, `Session.sights`: What is seen of commands that are meant for
  statements.
* `Session.Answered`: Two answers are one answer by numbers.

## Theorems

* `askStatement_alike`, `askHandle_alike`, `askView_alike`: The three kinds of
  questions.
* `perform_alongside`: A command on a statement does the same in two sessions
  with the same world.
* `perform_outside`: It leaves all other worlds as they are.
* `statements_independent`: What is seen of a statement does not depend on other
  statements.
-/

namespace RowScope

/-! ### Commands by numbers -/

/-- A question under other identities of views. -/
def Query.renamed (f : ViewId → ViewId) : Query → Query
  | get v g => get (f v) g
  | textOr v default => textOr (f v) default
  | convert v t => convert (f v) t
  | written v => written (f v)
  | q => q

/-- What was made, under other identities of views. -/
def Made.renamed (f : ViewId → ViewId) : Made → Made
  | view v => view (f v)
  | record vs => record (vs.map f)
  | made => made

/-- A command under other identities of views. -/
def Command.renamed (f : ViewId → ViewId) : Command → Command
  | getColumns id shape count => getColumns id (shape.renamed f) count
  | releaseView v => releaseView (f v)
  | drop made => drop (made.renamed f)
  | query q => query (q.renamed f)
  | c => c

/-- A reply under other identities of views. -/
def Reply.renamed (f : ViewId → ViewId) (r : Reply) : Reply :=
  ⟨r.answer.map (Value.renamed f), r.made.map (Made.renamed f)⟩

/-- Numbers that were replaced by the views that they stand for can be told
    again. So a reply that is the same by numbers looks the same when each
    session tells its views by number. -/
theorem Reply.number_placed (n : Numbering) (r : Reply) :
    (r.renamed n.placed).renamed n.number = r := by
  have hself : (fun k => n.number (n.placed k)) = fun k => k := funext n.number_placed
  rcases r with ⟨answer, made⟩
  -- Views occur in the answer and in what was made, and nowhere else in a
  -- reply.
  have hanswer : (answer.map (Value.renamed n.placed)).map (Value.renamed n.number) = answer := by
    rcases answer with f | v
    · rfl
    · simp only [Except.map, Value.renamed_renamed, hself, Value.renamed_self]
  have hmade : (made.map (Made.renamed n.placed)).map (Made.renamed n.number) = made := by
    rcases made with _ | made
    · rfl
    · cases made with
      | view k => simp only [Option.map_some, Made.renamed, n.number_placed]
      | record ks =>
          simp only [Option.map_some, Made.renamed, List.map_map, Function.comp_def, hself,
            List.map_id_fun', id_eq]
      | _ => rfl
  rw [renamed, renamed, hanswer, hmade]

/-- A question is about a statement, its handle or its views. -/
def Query.concerns (a : StatementId) (h : HandleId) : Query → Prop
  | path => False
  | isOpen => False
  | databaseText => False
  | totalChanges => False
  | statementSql id => id = a
  | statementHasRow id => id = a
  | isDone id => id = a
  | isClosed id => id = a
  | statementColumnCount id => id = a
  | statementText id => id = a
  | columnName id _ => id = a
  | get _ _ => True
  | textOr _ _ => True
  | convert _ _ => True
  | written _ => True
  | handleSql g => g = h
  | shares g => g = h
  | isFinalized g => g = h
  | handleHasRow g => g = h
  | handleRow g => g = h
  | handleColumnCount g => g = h
  | handleColumnNames g => g = h
  | handleColumnName g _ => g = h
  | handleText g => g = h
  | raw g _ _ => g = h

/-- A command is about a statement, its handle or its views. -/
def Command.concerns (a : StatementId) (h : HandleId) : Command → Prop
  | step id => id = a
  | exec id => id = a
  | reset id _ => id = a
  | closeStatement id => id = a
  | getColumn id _ => id = a
  | peek id _ _ => id = a
  | cells id => id = a
  | columnIndex id _ => id = a
  | isColumnNull id _ => id = a
  | getColumns id _ _ => id = a
  | releaseView _ => True
  | share g => g = h
  | release g => g = h
  | setRow g _ => g = h
  | executeHandle g => g = h
  | viewOf g _ => g = h
  | drop (.statement id) => id = a
  | drop (.view _) => True
  | drop (.handle g) => g = h
  | drop (.record _) => True
  | query q => q.concerns a h
  | _ => False

/-! ### What is seen -/

/-- The condition of a statement. -/
structure Condition where
  refs : Nat
  finalized : Bool
  hasRow : Bool
  columns : List Text
  done : Bool
  closed : Bool

/-- The condition of a statement, as its world shows it. -/
def World.condition (w : World) : Condition where
  refs := w.handle.shares
  finalized := w.handle.finalized
  hasRow := w.handle.hasRow
  columns := w.handle.columnNames
  done := w.statement.done
  closed := !w.statement.holding

/-- What is seen of a command that is meant for a statement: the reply with
    views by their numbers, the condition that the statement is left in, and the
    calls that are made. -/
structure Sight where
  reply : Reply
  condition : Option Condition
  calls : List Call

namespace Session

/-- The handle of a statement. -/
def handleOf (s : Session) (a : StatementId) : HandleId :=
  ((s.statements[a]?).map (·.handle)).getD 0

/-- A command that is meant for a statement, with the views that its numbers
    stand for. -/
def meant (s : Session) (a : StatementId) (c : Command) : Command :=
  c.renamed (s.numbering (s.handleOf a)).placed

/-- What is seen of one command. -/
def sight (e : Engine) (a : StatementId) (c : Command) (s : Session) : Sight :=
  let (reply, t) := s.perform e (s.meant a c)
  { reply := reply.renamed (t.numbering (s.handleOf a)).number
    condition := (t.world? a).map World.condition
    calls := t.calls.drop s.calls.length }

/-- What is seen of several commands in order, with the statements that they are
    meant for. -/
def sights (e : Engine) : List (StatementId × Command) → Session → List (StatementId × Sight)
  | [], _ => []
  | (a, c) :: rest, s => (a, s.sight e a c) :: sights e rest (s.perform e (s.meant a c)).2

end Session

/-! ### One command in two sessions -/

/-- What a direct reading yields holds no view. -/
theorem Cell.project_plain (c : Cell) (f : ViewId → ViewId) (p : Projection) :
    (c.project p).map (Value.renamed f) = c.project p := by
  cases p with
  | text => exact Value.renamed_bind f _ (Value.ofOption_renamed f .text fun _ => rfl) _
  | bytes => exact Value.renamed_bind f _ (Value.ofOption_renamed f .bytes fun _ => rfl) _
  | _ => exact Value.renamed_bind f _ (fun _ => rfl) _

/-- A direct reading fails as the cell does, and its value holds no view. -/
theorem Cell.reading_plain (c : Cell) (f : ViewId → ViewId) (p : Projection) :
    (ofCellReading (c.project p)).map (Value.renamed f) = ofCellReading (c.project p) := by
  have hplain := c.project_plain f p
  rcases hread : c.project p with fault | v
  · rfl
  · rw [hread] at hplain
    exact congrArg Except.ok (Except.ok.inj hplain)

/-- What is written is the text of a column, read without looking at the
    view. -/
theorem Column.written_renamed (c : Column) (f : ViewId → ViewId) :
    (do return Value.list [← (c.renamed f).get .fullText, .truth true] : Except Fault Value) =
      (do return Value.list [← c.get .fullText, .truth true] : Except Fault Value).map
        (Value.renamed f) := by
  have hplain := c.get_plain f .fullText
  rw [Column.get_renamed]
  rcases hget : c.get .fullText with x | text
  · rfl
  · rw [hget] at hplain
    have hsame : text.renamed f = text := Except.ok.inj hplain
    show Except.ok (Value.list [text, .truth true]) = .ok (.list [text.renamed f, .truth true])
    rw [hsame]

theorem Value.ofSql_renamed (f : ViewId → ViewId) (sql : Sql) :
    (Value.ofSql sql).renamed f = Value.ofSql sql := by
  cases sql with
  | text _ => rfl
  | missing => rfl

namespace Session

/-- Two answers are one answer by numbers, which each session tells with the
    views that it has under these numbers. -/
def Answered (w : World) (s t : Session) (p q : Except Fault Value) : Prop :=
  ∃ r : Except Fault Value,
    p = r.map (Value.renamed (s.numbering w.statement.handle).placed) ∧
      q = r.map (Value.renamed (t.numbering w.statement.handle).placed)

section

variable {s t : Session} {a : StatementId} {w : World}

/-! #### Replies -/

/-- What is answered without a word on views is answered alike, if the value
    says nothing of them either. -/
theorem plainly_alongside {α : Type} {o p : Outcome α} (value : α → Value)
    (hvalue : ∀ f x, (value x).renamed f = value x) (told : Alongside plain a w s t o p) :
    Alongside Reply.renamed a w s t (plainly value o) (plainly value p) := by
  rcases told.elim_plain with ⟨r, w', s', t', rfl, rfl, h⟩
  rcases r with f | x
  · exact ⟨⟨⟨.error f, none⟩, rfl, rfl⟩, w', h⟩
  · refine ⟨⟨⟨.ok (value x), none⟩, ?_, ?_⟩, w', h⟩
    · simp only [plainly, Reply.renamed, Except.map, hvalue, Option.map_none]
    · simp only [plainly, Reply.renamed, Except.map, hvalue, Option.map_none]

/-- A value is told as it is, with the views in it by their numbers. -/
theorem telling_alongside {o p : Outcome Value} (told : Alongside valued a w s t o p) :
    Alongside Reply.renamed a w s t (plainly (fun v => v) o) (plainly (fun v => v) p) := by
  rcases told.elim with ⟨r, w', s', t', rfl, rfl, h⟩
  rcases r with f | v
  · exact ⟨⟨⟨.error f, none⟩, rfl, rfl⟩, w', h⟩
  · exact ⟨⟨⟨.ok v, none⟩, rfl, rfl⟩, w', h⟩

theorem recording_alongside {o p : Outcome Value} (told : Alongside valued a w s t o p) :
    Alongside Reply.renamed a w s t (making (fun v => v) (fun v => .record v.views) o)
      (making (fun v => v) (fun v => .record v.views) p) := by
  rcases told.elim with ⟨r, w', s', t', rfl, rfl, h⟩
  rcases r with f | v
  · exact ⟨⟨⟨.error f, none⟩, rfl, rfl⟩, w', h⟩
  · refine ⟨⟨⟨.ok v, some (.record v.views)⟩, ?_, ?_⟩, w', h⟩
    · simp only [making, valued, Except.map, Value.views_renamed]
      rfl
    · simp only [making, valued, Except.map, Value.views_renamed]
      rfl

/-- A view is answered as a column, by its number and with its index. The index
    is read off the session that the view was made in, and both have a view of
    the same index under this number. -/
theorem viewing_alongside {o p : Outcome ViewId} (told : Alongside numbered a w s t o p) :
    Alongside Reply.renamed a w s t (viewing o) (viewing p) := by
  rcases told.elim with ⟨r, w', s', t', rfl, rfl, h⟩
  rcases r with f | k
  · exact ⟨⟨⟨.error f, none⟩, rfl, rfl⟩, w', h⟩
  · have hleft := world_views h.left k
    have hright := world_views h.right k
    rw [h.handle, h.placed.1] at hleft
    rw [h.handle, h.placed.2] at hright
    refine ⟨⟨⟨.ok (.column k ((w'.views[k]?.map (·.index)).getD 0)), some (.view k)⟩, ?_, ?_⟩,
      w', h⟩
    · simp only [viewing, making, viewValue, numbered, Except.map, hleft]
      rfl
    · simp only [viewing, making, viewValue, numbered, Except.map, hright]
      rfl

/-- Something is done that is always answered in the same way. -/
theorem done_alongside {s' t' : Session} {w' : World} (value : Value)
    (hvalue : ∀ f, value.renamed f = value) (h : Together a w s t w' s' t') :
    Alongside Reply.renamed a w s t (⟨.ok value, none⟩, s') (⟨.ok value, none⟩, t') := by
  refine ⟨⟨⟨.ok value, none⟩, ?_, ?_⟩, w', h⟩
  · simp only [Reply.renamed, Except.map, hvalue, Option.map_none]
  · simp only [Reply.renamed, Except.map, hvalue, Option.map_none]

/-! #### Questions -/

variable (hs : s.world? a = some w) (ht : t.world? a = some w)

include hs ht

/-- A question to the statement is answered from the world, which holds the
    statement and its handle. -/
theorem askStatement_alike (f : Statement → Handle → Value)
    (plain : ∀ st x g, (f st x).renamed g = f st x) :
    Answered w s t (s.askStatement a f) (t.askStatement a f) := by
  refine ⟨.ok (f w.statement w.handle), ?_, ?_⟩
  · simp only [askStatement, world_statement hs, Except.map, plain]
  · simp only [askStatement, world_statement ht, Except.map, plain]

/-- A question to the handle, likewise. -/
theorem askHandle_alike (f : Handle → Except Fault Value)
    (plain : ∀ x g, (f x).map (Value.renamed g) = f x) :
    Answered w s t (s.askHandle w.statement.handle f) (t.askHandle w.statement.handle f) := by
  refine ⟨f w.handle, ?_, ?_⟩
  · simp only [askHandle, (world_found hs).2, plain]
  · simp only [askHandle, (world_found ht).2, plain]

/-- A question to a view is asked of the column that each session has under the
    number of the view. These columns differ in the identity of the view at
    most, so it is enough that the answer commutes with renaming. -/
theorem askView_alike (k : Nat) (f : Column → Except Fault Value)
    (renames : ∀ c g, f (Column.renamed g c) = (f c).map (Value.renamed g)) :
    Answered w s t (s.askView ((s.numbering w.statement.handle).placed k) f)
      (t.askView ((t.numbering w.statement.handle).placed k) f) := by
  unfold askView
  rw [world_column hs, world_column ht]
  rcases w.column? k with _ | c
  · exact ⟨.error .noObject, rfl, rfl⟩
  · exact ⟨f c, renames c _, renames c _⟩

/-- The name of a column is a text, if there is one. -/
theorem columnName_alike (index : Int) :
    Answered w s t ((s.columnName a index).map .text) ((t.columnName a index).map .text) := by
  have hsame : s.columnName a index = t.columnName a index := by
    simp only [columnName, world_statement hs, world_statement ht]
  refine ⟨(s.columnName a index).map .text, ?_, ?_⟩
  · exact (Value.renamed_map _ _ (fun _ => rfl) _).symm
  · rw [hsame]
    exact (Value.renamed_map _ _ (fun _ => rfl) _).symm

/-- A question is answered alike in two sessions with the same world, up to the
    identities of views. There are three kinds of questions, by what they are
    about, and one fact for each kind; a question then only has to show that its
    answer holds no view, or that it commutes with renaming. -/
theorem ask_alongside (q : Query) (hq : q.concerns a w.statement.handle) :
    Answered w s t (s.ask (q.renamed (s.numbering w.statement.handle).placed))
      (t.ask (q.renamed (t.numbering w.statement.handle).placed)) := by
  cases q with
  -- Questions about the database are about no statement, and are not asked
  -- here.
  | path => exact False.elim hq
  | isOpen => exact False.elim hq
  | databaseText => exact False.elim hq
  | totalChanges => exact False.elim hq
  -- About the statement.
  | statementSql id =>
      obtain rfl : id = a := hq
      exact askStatement_alike hs ht _ fun st _ g => Value.ofSql_renamed g st.sql
  | statementHasRow id =>
      obtain rfl : id = a := hq
      exact askStatement_alike hs ht _ fun _ _ _ => rfl
  | isDone id =>
      obtain rfl : id = a := hq
      exact askStatement_alike hs ht _ fun _ _ _ => rfl
  | isClosed id =>
      obtain rfl : id = a := hq
      exact askStatement_alike hs ht _ fun _ _ _ => rfl
  | statementColumnCount id =>
      obtain rfl : id = a := hq
      exact askStatement_alike hs ht _ fun _ _ _ => rfl
  | statementText id =>
      obtain rfl : id = a := hq
      exact askStatement_alike hs ht _ fun _ _ _ => rfl
  | columnName id index =>
      obtain rfl : id = a := hq
      exact columnName_alike hs ht index
  -- About a view, which may be a part of the answer.
  | get k g =>
      refine askView_alike hs ht k _ fun c f => ?_
      rw [Column.get_renamed, Column.get_plain]
  | textOr k default =>
      exact askView_alike hs ht k _ fun c f =>
        (Value.renamed_map f .text (fun _ => rfl) (c.textOr default)).symm
  | convert k target => exact askView_alike hs ht k _ fun c f => c.convert_renamed f target
  | written k => exact askView_alike hs ht k _ fun c f => c.written_renamed f
  -- About the handle.
  | handleSql g =>
      obtain rfl : g = w.statement.handle := hq
      exact askHandle_alike hs ht _ fun x f => congrArg Except.ok (Value.ofSql_renamed f x.sql)
  | shares g =>
      obtain rfl : g = w.statement.handle := hq
      exact askHandle_alike hs ht _ fun _ _ => rfl
  | isFinalized g =>
      obtain rfl : g = w.statement.handle := hq
      exact askHandle_alike hs ht _ fun _ _ => rfl
  | handleHasRow g =>
      obtain rfl : g = w.statement.handle := hq
      exact askHandle_alike hs ht _ fun _ _ => rfl
  | handleRow g =>
      obtain rfl : g = w.statement.handle := hq
      refine askHandle_alike hs ht _ fun x f => congrArg Except.ok ?_
      exact Value.ofOption_renamed f _
        (fun row => Value.renamed_list f _ (Value.ofCell_renamed f) row) x.row
  | handleColumnCount g =>
      obtain rfl : g = w.statement.handle := hq
      exact askHandle_alike hs ht _ fun _ _ => rfl
  | handleColumnNames g =>
      obtain rfl : g = w.statement.handle := hq
      exact askHandle_alike hs ht _ fun x f =>
        congrArg Except.ok (Value.renamed_list f _ (fun _ => rfl) x.columnNames)
  | handleColumnName g index =>
      obtain rfl : g = w.statement.handle := hq
      exact askHandle_alike hs ht _ fun x f =>
        Value.renamed_map f .text (fun _ => rfl) (x.nameAt index)
  | handleText g =>
      obtain rfl : g = w.statement.handle := hq
      exact askHandle_alike hs ht _ fun _ _ => rfl
  | raw g index p =>
      obtain rfl : g = w.statement.handle := hq
      refine askHandle_alike hs ht _ fun x f => ?_
      rcases x.cellAt index with fault | c
      · rfl
      · exact c.reading_plain f p

/-! #### Commands -/

/-- A direct execution is one of the cursor, with the SQL of the handle and
    without parameters. -/
theorem executeHandle_alongside {e : Engine} (he : e.Forgetful) :
    Alongside plain a w s t (s.executeHandle e w.statement.handle)
      (t.executeHandle e w.statement.handle) := by
  unfold executeHandle
  rw [(world_found hs).2, (world_found ht).2]
  rcases (executeCursor_alongside hs ht he w.handle.sql Params.empty).elim_plain with
    ⟨r, w', s', t', hl, hr, h⟩
  simp only [hl, hr]
  cases r with
  | error x => exact .of_eq rfl h
  | ok _ => exact .of_eq rfl h

/-- What is dropped gives back the shares that it has: one, those of its views,
    or none if it is a bare handle. -/
theorem drop_together (made : Made) (hmade : (Command.drop made).concerns a w.statement.handle) :
    ∃ w', Together a w s t w' (s.drop (made.renamed (s.numbering w.statement.handle).placed))
      (t.drop (made.renamed (t.numbering w.statement.handle).placed)) := by
  cases made with
  | statement id =>
      obtain rfl : id = a := hmade
      exact closeStatement_together hs ht
  | view k => exact releaseView_together hs ht k
  | handle g => exact ⟨w, .refl hs ht⟩
  | record ks => exact releaseViews_together hs ht ks

/-- A command that concerns a statement does the same in two sessions with the
    same world: it answers the same, with views told by their numbers, and leads
    to the same world by the same calls.

    Commands are operations with a way of answering around them, and operations
    have been dealt with. What is left is which operation a command is, and how
    its answer tells of views: not at all, by a value, by a record, or by a new
    view. A command on the database concerns no statement. -/
theorem perform_alongside {e : Engine} (he : e.Forgetful) (c : Command)
    (hc : c.concerns a w.statement.handle) :
    Alongside Reply.renamed a w s t
      (s.perform e (c.renamed (s.numbering w.statement.handle).placed))
      (t.perform e (c.renamed (t.numbering w.statement.handle).placed)) := by
  -- There is a handle, so that what is done with it directly is not refused.
  have found : ∀ u : Session, u.world? a = some w →
      (u.handles[w.statement.handle]?).isSome = true := by
    intro u hu
    rw [(world_found hu).2]
    rfl
  cases c with
  -- Commands on the statement.
  | step id =>
      obtain rfl : id = a := hc
      exact plainly_alongside .truth (fun _ _ => rfl) (step_alongside hs ht he)
  | exec id =>
      obtain rfl : id = a := hc
      exact plainly_alongside .integer (fun _ _ => rfl) (exec_alongside hs ht he)
  | reset id params =>
      obtain rfl : id = a := hc
      exact plainly_alongside _ (fun _ _ => rfl) (reset_alongside hs ht params)
  | closeStatement id =>
      obtain rfl : id = a := hc
      rcases closeStatement_together hs ht with ⟨w', h⟩
      exact done_alongside .null (fun _ => rfl) h
  | getColumn id key =>
      obtain rfl : id = a := hc
      exact viewing_alongside (getColumn_alongside hs ht key)
  | peek id key g =>
      obtain rfl : id = a := hc
      refine telling_alongside (peek_alongside hs ht key _ ?_)
      intro f c
      rw [Column.get_renamed, Column.get_plain]
  | cells id =>
      obtain rfl : id = a := hc
      exact telling_alongside (cells_alongside hs ht)
  | columnIndex id name =>
      obtain rfl : id = a := hc
      exact plainly_alongside _ (fun _ _ => rfl) (columnIndex_alongside hs ht name)
  | isColumnNull id key =>
      obtain rfl : id = a := hc
      exact plainly_alongside .truth (fun _ _ => rfl) (isColumnNull_alongside hs ht key)
  | getColumns id shape count =>
      obtain rfl : id = a := hc
      exact recording_alongside (getColumns_alongside hs ht shape count)
  -- A view is given up by its number, whoever holds it.
  | releaseView k =>
      rcases releaseView_together hs ht k with ⟨w', h⟩
      exact done_alongside .null (fun _ => rfl) h
  -- Commands on the handle itself, which bypass the statement.
  | share g =>
      obtain rfl : g = w.statement.handle := hc
      simp only [Command.renamed, perform, withHandle, found s hs, found t ht, if_true]
      exact done_alongside (.truth true) (fun _ => rfl) (.of_within hs ht (share w.statement.handle)
        fun _ hu => within_onHandle hu fun x => { x with shares := x.shares + 1 })
  | release g =>
      obtain rfl : g = w.statement.handle := hc
      simp only [Command.renamed, perform, withHandle, found s hs, found t ht, if_true]
      rcases release_together hs ht with ⟨w', h⟩
      exact done_alongside .null (fun _ => rfl) h
  | setRow g row =>
      obtain rfl : g = w.statement.handle := hc
      simp only [Command.renamed, perform, withHandle, found s hs, found t ht, if_true]
      exact done_alongside .null (fun _ => rfl) (setRow_together hs ht row)
  | executeHandle g =>
      obtain rfl : g = w.statement.handle := hc
      exact plainly_alongside _ (fun _ _ => rfl) (executeHandle_alongside hs ht he)
  | viewOf g index =>
      obtain rfl : g = w.statement.handle := hc
      simp only [Command.renamed, perform, found s hs, found t ht, if_true]
      rcases newView_alongside hs ht index with ⟨⟨k, hl, hr⟩, hmade⟩
      exact viewing_alongside ⟨⟨.ok k, congrArg Except.ok hl, congrArg Except.ok hr⟩, hmade⟩
  | drop made =>
      rcases drop_together hs ht made hc with ⟨w', h⟩
      exact done_alongside .null (fun _ => rfl) h
  -- A question changes nothing.
  | query q =>
      rcases ask_alongside hs ht q hc with ⟨r, hl, hr⟩
      refine ⟨⟨⟨r, none⟩, ?_, ?_⟩, w, .refl hs ht⟩
      · exact congrArg (fun answer => (⟨answer, none⟩ : Reply)) hl
      · exact congrArg (fun answer => (⟨answer, none⟩ : Reply)) hr
  -- Commands on the database, and those that make a statement or a handle.
  | openDatabase => exact False.elim hc
  | enter => exact False.elim hc
  | closeDatabase => exact False.elim hc
  | script sql => exact False.elim hc
  | tableExists name => exact False.elim hc
  | lastInsertRowid => exact False.elim hc
  | prepare sql params => exact False.elim hc
  | queryFirst sql params => exact False.elim hc
  | prepareHandle sql => exact False.elim hc

end

/-! ### Several statements -/

section

variable {s t : Session} {a : StatementId} {w : World}

theorem handleOf_world (hw : s.world? a = some w) : s.handleOf a = w.statement.handle := by
  rw [handleOf, (world_found hw).1]
  rfl

/-- A statement that was made has a world, since no handle is ever taken
    away. -/
theorem world_of_lt (hsep : s.Separate) (ha : a < s.statements.length) :
    ∃ w, s.world? a = some w := by
  have hlt := hsep.2 _ (List.mem_map_of_mem (List.getElem_mem ha))
  have hfound := (statement?_eq_some_iff s a _ _).mpr
    ⟨List.getElem?_eq_getElem ha, List.getElem?_eq_getElem hlt⟩
  exact ⟨_, by rw [world?, hfound, Option.map_some]⟩

/-- Two statements have different handles. This is what separate sessions are
    about, and what makes their worlds disjoint. -/
theorem world_apart (hsep : s.Separate) {b : StatementId} {x : World} (hw : s.world? a = some w)
    (hx : s.world? b = some x) (hb : b ≠ a) : w.statement.handle ≠ x.statement.handle := by
  intro hsame
  exact hb (hsep.same s b a _ _ (world_found hx).1 (world_found hw).1 hsame.symm)

theorem separate_perform (hsep : s.Separate) (e : Engine) (c : Command) :
    (s.perform e c).2.Separate :=
  (perform_leads e c s).preserves Separate (fun b u v _ m hu => hu.move b u v m) hsep

/-- A command that concerns one statement leaves the world of every other one as
    it is, and the views in it where they are. It calls nobody else's cursor.
    This comes with the comparison of two sessions, which may be one and the
    same. -/
theorem perform_outside {e : Engine} (he : e.Forgetful) (hsep : s.Separate)
    (hw : s.world? a = some w) (c : Command) (hc : c.concerns a (s.handleOf a)) :
    ∃ w' ks, w'.statement.handle = w.statement.handle ∧
      (s.perform e (s.meant a c)).2.world? a = some w' ∧
      (s.perform e (s.meant a c)).2.calls = s.calls ++ ks ∧
      (∀ k ∈ ks, k.handle? = some (s.handleOf a)) ∧
      ∀ (b : StatementId) (x : World), b ≠ a → s.world? b = some x →
        (s.perform e (s.meant a c)).2.world? b = some x ∧
          ((s.perform e (s.meant a c)).2.numbering x.statement.handle).ids =
            (s.numbering x.statement.handle).ids := by
  unfold meant
  rw [handleOf_world hw] at hc ⊢
  rcases (perform_alongside hw hw he c hc).together with ⟨w', ks, hin, -⟩
  refine ⟨w', ks, hin.handle, hin.after, hin.calls, hin.own, ?_⟩
  intro b x hb hx
  exact hin.outside b hb x hx (world_apart hsep hx hw (Ne.symm hb))

/-- What is seen of one command is the same in two sessions with the same world,
    and so is the world afterwards. Each session tells the views by the
    numbering that it has then, in which the numbers are placed as they were. -/
theorem sight_alongside {e : Engine} (he : e.Forgetful) (hs : s.world? a = some w)
    (ht : t.world? a = some w) (c : Command) (hc : c.concerns a (s.handleOf a)) :
    s.sight e a c = t.sight e a c ∧ ∃ w', (s.perform e (s.meant a c)).2.world? a = some w' ∧
      (t.perform e (t.meant a c)).2.world? a = some w' := by
  unfold sight meant
  rw [handleOf_world hs] at hc ⊢
  rw [handleOf_world ht]
  rcases (perform_alongside hs ht he c hc).elim with ⟨r, w', s', t', hl, hr, ks, left, right⟩
  rw [hl, hr]
  refine ⟨?_, w', left.after, right.after⟩
  simp only []
  -- The numbers that were placed before the command are told by the placement
  -- after it.
  rw [← left.placed, ← right.placed, Reply.number_placed, Reply.number_placed, left.after,
    right.after, left.calls, right.calls, List.drop_left, List.drop_left]

/-- Every command is meant for a statement that there is, and concerns it. -/
def Meant (s : Session) (ops : List (StatementId × Command)) : Prop :=
  ∀ p ∈ ops, ∃ x, s.world? p.1 = some x ∧ p.2.concerns p.1 x.statement.handle

/-- The commands that are left are still meant for statements that there are, as
    no command takes one away. -/
theorem Meant.perform {e : Engine} (he : e.Forgetful) (hsep : s.Separate) {c : Command}
    {rest : List (StatementId × Command)} (hops : s.Meant ((a, c) :: rest)) :
    (s.perform e (s.meant a c)).2.Meant rest := by
  rcases hops (a, c) List.mem_cons_self with ⟨w, hw, hc⟩
  rw [← handleOf_world hw] at hc
  rcases perform_outside he hsep hw c hc with ⟨w', -, hhandle, hw', -, -, houtside⟩
  intro q hq
  rcases hops q (List.mem_cons_of_mem _ hq) with ⟨x, hx, hcq⟩
  -- The statement itself keeps its handle, and all others keep their worlds.
  by_cases hqa : q.1 = a
  · rw [hqa, hw, Option.some.injEq] at hx
    rw [← hx, ← hhandle] at hcq
    exact ⟨w', by rw [hqa]; exact hw', hcq⟩
  · exact ⟨x, (houtside q.1 x hqa hx).1, hcq⟩

/-- What is seen of a statement, in turns with others in one session and alone
    in another one. The induction is on the commands, for two sessions that
    share the world of the statement and need share nothing else: a command of
    another statement is performed in one of them only, and leaves that world as
    it is. -/
theorem sights_filter {e : Engine} (he : e.Forgetful) (ops : List (StatementId × Command))
    (hsep : s.Separate) (hops : s.Meant ops) (hs : s.world? a = some w) (ht : t.world? a = some w) :
    (s.sights e ops).filter (·.1 == a) = t.sights e (ops.filter (·.1 == a)) := by
  -- On the commands: one for the statement is performed in both sessions, any
  -- other in the first.
  induction ops generalizing s t w with
  | nil => rfl
  | cons p rest ih =>
      rcases p with ⟨b, c⟩
      rcases hops (b, c) List.mem_cons_self with ⟨x, hx, hc⟩
      rw [← handleOf_world hx] at hc
      have hsep' := separate_perform hsep e (s.meant b c)
      have hops' := hops.perform he hsep
      by_cases hb : b = a
      · subst hb
        rcases sight_alongside he hs ht c hc with ⟨hsight, w', hs', ht'⟩
        have hrest := ih hsep' hops' hs' ht'
        simp only [sights, List.filter_cons, beq_self_eq_true, if_true, hsight, hrest]
      · rcases perform_outside he hsep hx c hc with ⟨-, -, -, -, -, -, houtside⟩
        have hrest := ih hsep' hops' (houtside a w (Ne.symm hb) hs).1 ht
        have hno : (b == a) = false := beq_false_of_ne hb
        simp only [sights, List.filter_cons, hno, Bool.false_eq_true, if_false, hrest]

end

/-- Statements do not interfere, for an engine whose answer to an execution
    depends on nothing but the SQL and the parameters. What is seen of a
    statement is the same whether its commands are performed in turns with those
    of others or alone. And each command that concerns a statement leaves the
    world of every other one as it is, which is the statement with its
    parameters, flags and name table, the handle with its row, and the views.
    The cursors that are called belong to the statement that the command
    concerns, and no two statements have the same one.

    The first part compares two runs of one session, from any state that can be
    reached, and the second is about one command. Neither has a bound on how
    often the statements take turns. -/
theorem statements_independent (e : Engine) (he : e.Forgetful) (s : Session)
    (hs : Reachable e (fun _ => True) s) :
    (∀ (ops : List (StatementId × Command)) (a : StatementId), a < s.statements.length →
        (∀ p ∈ ops, p.1 < s.statements.length ∧ p.2.concerns p.1 (s.handleOf p.1)) →
        (s.sights e ops).filter (·.1 == a) = s.sights e (ops.filter (·.1 == a))) ∧
      ∀ (a b : StatementId) (c : Command), a < s.statements.length → b < s.statements.length →
        a ≠ b → c.concerns b (s.handleOf b) →
          (s.perform e (s.meant b c)).2.world? a = s.world? a ∧
            ((s.perform e (s.meant b c)).2.numbering (s.handleOf a)).ids =
              (s.numbering (s.handleOf a)).ids ∧
            s.handleOf a ≠ s.handleOf b ∧
            ∃ ks, (s.perform e (s.meant b c)).2.calls = s.calls ++ ks ∧
              ∀ k ∈ ks, k.handle? = some (s.handleOf b) := by
  have hsep := reachable_separate e _ s hs
  constructor
  · -- In turns or alone: by induction over the operations, from the worlds at
    -- the start.
    intro ops a ha hops
    rcases world_of_lt hsep ha with ⟨w, hw⟩
    refine sights_filter he ops hsep ?_ hw hw
    intro p hp
    rcases hops p hp with ⟨hlt, hc⟩
    rcases world_of_lt hsep hlt with ⟨x, hx⟩
    rw [handleOf_world hx] at hc
    exact ⟨x, hx, hc⟩
  · -- One command, from what it does outside the world of its own statement.
    intro a b c ha hb hne hc
    rcases world_of_lt hsep ha with ⟨w, hw⟩
    rcases world_of_lt hsep hb with ⟨x, hx⟩
    rcases perform_outside he hsep hx c hc with ⟨-, ks, -, -, hcalls, hown, houtside⟩
    rcases houtside a w hne hw with ⟨hworld, hids⟩
    rw [handleOf_world hw]
    refine ⟨hworld.trans hw.symm, hids, ?_, ks, hcalls, hown⟩
    rw [handleOf_world hx]
    exact world_apart hsep hw hx (Ne.symm hne)

/-- A program that makes two statements of the same SQL. -/
def pairing : List Command :=
  [.openDatabase, .prepare (.text []) .empty, .prepare (.text []) .empty]

/-- Two statements of the same SQL in turns: both are stepped, one is looked at
    and closed while the other one has a row, and then the other one is looked
    at. -/
def turns : List (StatementId × Command) :=
  [(0, .step 0), (1, .step 1), (1, .getColumn 1 (.index 0)), (0, .getColumn 0 (.index 0)),
    (1, .closeStatement 1), (1, .releaseView 0), (0, .query (.get 0 .int64))]

/-- The view of the first statement is the second one that is made, but reads
    the row of its own statement all the same. -/
theorem statements_independent_turns :
    ((unopened.run .oneRow pairing).2.sights .oneRow turns).filter (·.1 == 0) =
        (unopened.run .oneRow pairing).2.sights .oneRow
          [(0, .step 0), (0, .getColumn 0 (.index 0)), (0, .query (.get 0 .int64))] ∧
      ((unopened.run .oneRow pairing).2.sights .oneRow turns).getLast?.map (·.2.reply.answer) =
        some (.ok (.integer 7)) ∧
      ((unopened.run .oneRow pairing).2.perform .oneRow
          ((unopened.run .oneRow pairing).2.meant 1 (.step 1))).2.world? 0 =
        (unopened.run .oneRow pairing).2.world? 0 := by
  have hs := reachable_run .oneRow (fun _ => True) pairing unopened
    (.start [] .standard ⟨.root, []⟩) (fun _ _ => trivial)
  rcases statements_independent .oneRow (fun _ _ _ _ => rfl) _ hs with ⟨hturns, hone⟩
  refine ⟨hturns turns 0 (by decide) ?_, rfl,
    (hone 0 1 (.step 1) (by decide) (by decide) (by decide) rfl).1⟩
  intro p hp
  simp only [turns, List.mem_cons, List.not_mem_nil, or_false] at hp
  rcases hp with rfl | rfl | rfl | rfl | rfl | rfl | rfl
  all_goals exact ⟨by decide, by trivial⟩

end Session

end RowScope
