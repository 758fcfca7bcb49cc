import RowScope.Proofs.Session.Footprint

/-!
# Frames of Commands

What a command touches, in one table. A command names at most one statement that
it steps, one that it searches and one that it closes, and it names the views
that it gives back; all else that it touches is what it makes itself, told by
its identity. Whatever the table does not list is the *frame* of the command,
and stays as it is.

The table is the only place where the commands are listed. An invariant that the
moves of the table preserve is preserved by every command, and so by every run.

## Main definitions

* `Command.moved?`, `Command.searched?`, `Command.closed?`, `Command.released`:
  What a command names.
* `Command.Moves`, `Command.Uses`: A command steps a statement of a handle, or
  uses its cursor.
* `Command.touches`: What a command touches.

## Theorems

* `perform_leads`: A command stays within its row of the table.
* `reachable_preserves`: What the moves of the permitted commands preserve holds
  wherever they lead.
-/

namespace RowScope

namespace Command

/-- The statement that a command steps or resets. -/
def moved? : Command → Option StatementId
  | step id => some id
  | exec id => some id
  | reset id _ => some id
  | _ => none

/-- The statement in whose name table a command looks. -/
def searched? : Command → Option StatementId
  | columnIndex id _ => some id
  | getColumn id (.name _) => some id
  | peek id (.name _) _ => some id
  | isColumnNull id (.name _) => some id
  | _ => none

/-- The statement that a command closes. -/
def closed? : Command → Option StatementId
  | closeStatement id => some id
  | drop (.statement id) => some id
  | _ => none

/-- The views that a command gives back. -/
def released : Command → List ViewId
  | releaseView v => [v]
  | drop (.view v) => [v]
  | drop (.record vs) => vs
  | _ => []

/-- A command steps or resets an open statement of a handle. -/
def Moves (c : Command) (s : Session) (h : HandleId) : Prop :=
  ∃ id, c.moved? = some id ∧ s.Drives id h

/-- A command uses the cursor of a handle. -/
def Uses (c : Command) (s : Session) (h : HandleId) : Prop :=
  c.Moves s h ∨ c = .executeHandle h

/-- What a command touches, apart from what it makes itself. What it makes lies
    at or beyond the length of the list that it is put into, so a bound on the
    identity is all that is needed to leave out the objects that were there. -/
def touches (c : Command) (s : Session) : Touch → Prop
  | .aside => True
  | .call k => ∀ h, k.handle? = some h → c.Uses s h ∨ s.handles.length ≤ h
  | .prepare => c.searched? = none
  | .view _ => True
  | .cursor h => c.Uses s h ∨ s.handles.length ≤ h
  | .row h => c.Moves s h ∨ s.handles.length ≤ h
  | .flags id => c.moved? = some id ∨ s.statements.length ≤ id
  | .places id => c.searched? = some id
  | .close id => c.closed? = some id ∨ s.statements.length ≤ id
  | .release v => v ∈ c.released ∨ s.views.length ≤ v
  | .handle => ∃ sql, c = .prepareHandle sql
  | .bareView h => ∃ index, c = .viewOf h index
  | .share h => c = .share h
  | .giveBack h => c = .release h
  | .setRow h => ∃ row, c = .setRow h row

/-- The footprint of a step is in the row of every command that steps that
    statement. -/
theorem touches_of_ofStep (c : Command) (s : Session) (id : StatementId)
    (hc : c.moved? = some id) (a : Touch) (ha : Touch.ofStep s id a) : c.touches s a := by
  cases a with
  | aside => trivial
  | call k =>
      intro h hk
      rcases ha with ⟨h', hk', hd⟩
      rw [hk', Option.some.injEq] at hk
      rw [← hk]
      exact Or.inl (Or.inl ⟨id, hc, hd⟩)
  | cursor h => exact Or.inl (Or.inl ⟨id, hc, ha⟩)
  | row h => exact Or.inl ⟨id, hc, ha⟩
  | flags id' =>
      rw [show id' = id from ha]
      exact Or.inl hc
  | _ => exact False.elim ha

/-- The footprint of a lookup is in the row of every command that searches that
    statement. A key that is an index asks for nothing, and so there is nothing
    to be named by the command. -/
theorem touches_of_ofLookup (c : Command) (s : Session) (id : StatementId) (key : Key)
    (hc : ∀ name, key = .name name → c.searched? = some id) (a : Touch)
    (ha : Touch.ofLookup id key a) : c.touches s a := by
  cases a with
  | places id' =>
      rcases ha with ⟨rfl, name, hkey⟩
      exact hc name hkey
  | _ => exact False.elim ha

/-- The footprint of a reading is in the row of every command that searches as
    far as the key is a name. The views are new ones and need no mention. -/
theorem touches_of_ofReading (c : Command) (s : Session) (id : StatementId) (key : Key)
    (hc : ∀ name, key = .name name → c.searched? = some id) (a : Touch)
    (ha : Touch.ofReading s.views.length id key a) : c.touches s a := by
  cases a with
  | places id' =>
      rcases ha with ⟨rfl, name, hkey⟩
      exact hc name hkey
  | view h => trivial
  | release v => exact Or.inr ha
  | _ => exact False.elim ha

/-- The footprint of a query for one value is in the row of every command, since
    all of it is about what the query makes. -/
theorem touches_of_ofQuery (c : Command) (s : Session) (hc : c.searched? = none) (a : Touch)
    (ha : Touch.ofQuery s a) : c.touches s a := by
  cases a with
  | aside => trivial
  | prepare => exact hc
  | view h => trivial
  | call k => exact fun h hk => Or.inr (ha h hk)
  | cursor h => exact Or.inr ha
  | row h => exact Or.inr ha
  | flags id => exact Or.inr ha
  | close id => exact Or.inr ha
  | release v => exact Or.inr ha
  | _ => exact False.elim ha

theorem touches_of_ofDatabase (c : Command) (s : Session) (a : Touch) (ha : Touch.ofDatabase a) :
    c.touches s a := by
  cases a with
  | aside => trivial
  | call k =>
      intro h hk
      exact absurd (show k.handle? = none from ha) (by rw [hk]; exact Option.some_ne_none h)
  | _ => exact False.elim ha

/-- The footprint of the use of a cursor is in the row of the one command that
    uses a cursor without its statement. -/
theorem touches_of_ofCursor (h : HandleId) (s : Session) (a : Touch) (ha : Touch.ofCursor h a) :
    (executeHandle h).touches s a := by
  -- The only command that uses a cursor without its statement.
  cases a with
  | aside => trivial
  | call k =>
      intro h' hk
      rw [show k.handle? = some h from ha, Option.some.injEq] at hk
      exact Or.inl (Or.inr (by rw [hk]))
  | cursor h' => exact Or.inl (Or.inr (by rw [show h' = h from ha]))
  | _ => exact False.elim ha

end Command

namespace Session

@[simp] theorem plainly_state {α : Type} (value : α → Value) (o : Outcome α) :
    (plainly value o).2 = o.2 := by
  rcases o with ⟨f | a, s⟩
  · rfl
  · rfl

@[simp] theorem making_state {α : Type} (value : α → Value) (made : α → Made) (o : Outcome α) :
    (making value made o).2 = o.2 := by
  rcases o with ⟨f | a, s⟩
  · rfl
  · rfl

@[simp] theorem viewing_state (o : Outcome ViewId) : (viewing o).2 = o.2 :=
  making_state _ _ o

/-- To drop what was made is to close it or to give back its views. A handle has
    no share of its own that could be given back by dropping it. -/
theorem drop_leads (made : Made) (s : Session) :
    s.Leads ((Command.drop made).touches s) (s.drop made) := by
  cases made with
  | statement id => exact Leads.one (.close id) (Or.inl rfl) (.close id)
  | view v => exact Leads.one (.release v) (Or.inl List.mem_cons_self) (.release v)
  | handle h => exact Leads.refl _ s
  | record vs => exact releaseViews_leads _ vs (fun v hv => Or.inl hv) s

/-- A direct use of a handle is one move, if there is such a handle, and nothing
    otherwise. -/
theorem withHandle_leads (P : Touch → Prop) (h : HandleId) (value : Value)
    (f : Session → Session) (s : Session) (hf : s.Leads P (f s)) :
    s.Leads P (s.withHandle h value f).2 := by
  unfold withHandle
  split
  · exact hf
  · exact Leads.refl P s

/-- A view that is made directly needs no row, only a handle. -/
theorem viewOf_leads (h : HandleId) (index : Int) (e : Engine) (s : Session) :
    s.Leads ((Command.viewOf h index).touches s) (s.perform e (.viewOf h index)).2 := by
  unfold perform
  simp only []
  rcases hh : s.handles[h]? with _ | handle
  · exact Leads.refl _ s
  · simp only [Option.isSome_some, if_true, viewing_state]
    exact Leads.one (.bareView h) ⟨index, rfl⟩ (.bareView index hh)

/-- A command touches what the table says. Each case is the footprint of an
    operation, found to be within the row of the command; that is all that has
    to be changed here if an operation changes. -/
theorem perform_leads (e : Engine) (c : Command) (s : Session) :
    s.Leads (c.touches s) (s.perform e c).2 := by
  -- One case for each command: its operation, and its row of the table.
  cases c with
  | openDatabase =>
      simp only [perform, plainly_state]
      exact (openDatabase_leads e s).mono (Command.touches_of_ofDatabase _ s)
  | enter =>
      simp only [perform, plainly_state]
      exact (openDatabase_leads e s).mono (Command.touches_of_ofDatabase _ s)
  | closeDatabase => exact (closeDatabase_leads s).mono (Command.touches_of_ofDatabase _ s)
  | script sql =>
      simp only [perform, plainly_state]
      exact (script_leads e sql s).mono (Command.touches_of_ofDatabase _ s)
  | tableExists name =>
      simp only [perform, plainly_state]
      exact (tableExists_leads e name s).mono (Command.touches_of_ofQuery _ s rfl)
  | lastInsertRowid =>
      simp only [perform, plainly_state]
      exact (lastInsertRowid_leads e s).mono (Command.touches_of_ofQuery _ s rfl)
  | prepare sql params =>
      simp only [perform, making_state]
      exact prepare_leads ((Command.prepare sql params).touches s) rfl sql params s
  | queryFirst sql params =>
      simp only [perform, viewing_state]
      exact (queryFirst_leads e sql params s).mono (Command.touches_of_ofQuery _ s rfl)
  | prepareHandle sql =>
      simp only [perform, making_state]
      unfold prepareHandle
      split
      · exact Leads.refl _ s
      · rename_i c _
        exact Leads.one .handle ⟨sql, rfl⟩ (.handle c sql)
  | step id =>
      simp only [perform, plainly_state]
      exact (step_leads e id s).mono (Command.touches_of_ofStep _ s id rfl)
  | exec id =>
      -- Whether there was an unexpected row shows in the answer only.
      simp only [perform, plainly_state, exec_state]
      exact (step_leads e id s).mono (Command.touches_of_ofStep _ s id rfl)
  | reset id params =>
      simp only [perform, plainly_state]
      exact (reset_leads id params s).mono (Command.touches_of_ofStep _ s id rfl)
  | closeStatement id => exact Leads.one (.close id) (Or.inl rfl) (.close id)
  | getColumn id key =>
      simp only [perform, viewing_state]
      refine (getColumn_leads s.views.length id key s).mono
        (Command.touches_of_ofReading _ s id key ?_)
      rintro name rfl
      rfl
  | peek id key g =>
      simp only [perform, plainly_state]
      refine (peek_leads s.views.length id key _ s (Nat.le_refl _)).mono
        (Command.touches_of_ofReading _ s id key ?_)
      rintro name rfl
      rfl
  | cells id =>
      -- No key of these is a name, hence nothing is searched.
      simp only [perform, plainly_state]
      exact (cells_leads id s).mono
        (Command.touches_of_ofReading _ s id (.index 0) (fun _ hc => Key.noConfusion hc))
  | columnIndex id name =>
      simp only [perform, plainly_state]
      exact (columnIndex_leads id name s).mono
        (Command.touches_of_ofLookup _ s id (.name name) (fun _ _ => rfl))
  | isColumnNull id key =>
      simp only [perform, plainly_state]
      refine (isColumnNull_leads id key s).mono (Command.touches_of_ofLookup _ s id key ?_)
      rintro name rfl
      rfl
  | getColumns id shape count =>
      simp only [perform, making_state]
      exact (getColumns_leads id shape count s).mono
        (Command.touches_of_ofReading _ s id (.index 0) (fun _ hc => Key.noConfusion hc))
  | releaseView v => exact Leads.one (.release v) (Or.inl List.mem_cons_self) (.release v)
  | share h => exact withHandle_leads _ h _ _ s (Leads.one (.share h) rfl (.share h))
  | release h => exact withHandle_leads _ h _ _ s (Leads.one (.giveBack h) rfl (.giveBack h))
  | setRow h row =>
      exact withHandle_leads _ h _ _ s (Leads.one (.setRow h) ⟨row, rfl⟩ (.setRow h row))
  | executeHandle h =>
      simp only [perform, plainly_state]
      exact (executeHandle_leads e h s).mono (Command.touches_of_ofCursor h s)
  | viewOf h index => exact viewOf_leads h index e s
  | drop made => exact drop_leads made s
  | query q => exact Leads.refl _ s

/-- An invariant of moves holds wherever the permitted commands lead, if it
    holds at the start. An invariant is thus shown by looking at the moves, of
    which there are few kinds, and the commands appear only in what they
    touch. -/
theorem reachable_preserves (e : Engine) (allowed : Command → Prop) (I : Session → Prop)
    (hstart : ∀ path config here, I (Session.start path config here))
    (hmove : ∀ c s a u w, allowed c → c.touches s a → Move a u w → I u → I w)
    (s : Session) (hs : Reachable e allowed s) : I s := by
  -- On the commands of the run, and in each of them on its moves.
  induction hs with
  | start path config here => exact hstart path config here
  | @perform s c _ permitted ih =>
      exact (perform_leads e c s).preserves I (fun a u w ha => hmove c s a u w permitted ha) ih

end Session

end RowScope
