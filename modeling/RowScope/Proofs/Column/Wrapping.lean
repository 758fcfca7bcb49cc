import RowScope.Proofs.Column.Reading

/-!
# Wrapped Targets

New names and choices with nothing can be laid around a target in any order and
to any depth. What a column converts to does not depend on how deep they are: a
cell that is not NULL is converted as the core asks, and NULL becomes nothing if
there is a choice with nothing anywhere around the core.

The recursion alone does not say this, because the layers are not kept as they
were laid. A choice takes in the alternatives of a choice that it is laid
around, and drops the ones it has already, so several choices with nothing
become one, and only a new name between them keeps them apart. So the invariant
is about what a target has to offer rather than how it is put together: it
`Offers` one thing that is something, either right away or in a choice with
nothing, and the next choice offers the same thing again.

Two kinds of cores do not take part in this. A choice between several things
stays one if nothing is added to it, so a choice with nothing gets around it
only by way of a new name. And the kind of value that nothing is leaves no
choice with nothing at all: such a choice is that kind again.

The NULL of a cell is looked at in the outermost choice, before the core is ever
reached. That is why NULL becomes nothing also where the core has no conversion.

## Main definitions

* `Target.IsOpen`: A choice between several things.
* `Target.ChoiceForm`: The ways of writing a choice with nothing.
* `Target.IsCore`: What layers are laid around.
* `Target.Wraps`: The targets with a core, and whether nothing is among what
  they leave to choose.
* `Target.Offers`: What a target has to offer.
* `Column.ConvertsAs`: What a column converts to at a core.

## Theorems

* `Target.choice_offers`: A choice with nothing offers what the target offers.
* `Column.convert_choice`: The conversion to a choice with nothing.
* `Column.convert_wraps`: What each layer keeps.
* `Column.converts_through`: A column converts to a wrapped target as it does to
  the core.
-/

namespace RowScope

namespace Target

/-- A choice in which more than one alternative is something. -/
inductive IsOpen : Target → Prop
  | mk (spelling : Spelling) (alternatives : List Target)
      (several : 1 < alternatives.countP fun t => !t.isNothing) :
      IsOpen (choice spelling alternatives)

/-- The ways of writing a choice between a target and nothing. -/
inductive ChoiceForm
  | optional
  | nothingLast
  | nothingFirst
deriving DecidableEq, Repr

/-- The choice that is written so. -/
def ChoiceForm.of (t : Target) : ChoiceForm → Target
  | optional => t.orNothing
  | nothingLast => either [t, nothing]
  | nothingFirst => either [nothing, t]

/-- What layers are laid around: a kind of value, also one that no cell converts
    to, the column itself, or a choice between several things. No kind of value
    has the name of nothing. -/
inductive IsCore : Target → Prop
  | kind {t : Target} {g : Getter} (h : t.getter? = some g) : IsCore t
  | truth : IsCore truth
  | anything : IsCore anything
  | column : IsCore column
  | unsupported (typeName : String) (h : typeName ≠ "None") : IsCore (unsupported typeName)
  | absence : IsCore absence
  | several {t : Target} (h : t.IsOpen) : IsCore t

/-- The targets that are made of a core by laying new names and choices with
    nothing around it, and whether nothing is among what they leave to choose. A
    choice between several things takes nothing in, and the kind of value that
    nothing is leaves no choice with nothing. -/
inductive Wraps (core : Target) : Target → Bool → Prop
  | bare : Wraps core core false
  | named {t : Target} {nullable : Bool} (name : Text) (inner : Wraps core t nullable) :
      Wraps core (named name t) nullable
  | choice {t : Target} {nullable : Bool} (form : ChoiceForm) (inner : Wraps core t nullable)
      (closed : ¬ t.IsOpen) (something : t ≠ absence) : Wraps core (form.of t) true
  | noChoice {nullable : Bool} (form : ChoiceForm) (inner : Wraps core absence nullable) :
      Wraps core (form.of absence) nullable

/-! ### What a choice offers -/

/-- A target that is something and no choice, and is not taken for nothing. -/
structure IsPlain (t : Target) : Prop where
  single : t.alternatives = [t]
  something : t.isNothing = false
  apart : t.name? ≠ some "None"

/-- One thing and nothing, in either order. -/
def IsPair (x : Target) (ts : List Target) : Prop := ts = [x, nothing] ∨ ts = [nothing, x]

/-- A target has one thing to offer, by itself or in a choice with nothing. -/
inductive Offers (x : Target) : Target → Prop
  | itself : Offers x x
  | choice (spelling : Spelling) {pair : List Target} (h : IsPair x pair) :
      Offers x (choice spelling pair)

theorem isPlain_named (name : Text) (t : Target) : (named name t).IsPlain :=
  ⟨rfl, rfl, nofun⟩

/-- The kind of value that nothing is leaves no choice with nothing. -/
theorem choice_absence (form : ChoiceForm) : form.of absence = absence := by
  cases form with
  | optional => rfl
  | nothingLast => rfl
  | nothingFirst => rfl

section

variable {x t : Target}

/-- A plain target and nothing are told apart. Alternatives are compared by
    their names, so it is enough that the plain one does not have the name of
    nothing. -/
theorem IsPlain.same_nothing (h : x.IsPlain) : same nothing x = false ∧ same x nothing = false := by
  have hleft : (some "None" == x.name?) = false :=
    beq_eq_false_iff_ne.mpr fun heq => h.apart heq.symm
  have hright : (x.name? == some "None") = false := beq_eq_false_iff_ne.mpr h.apart
  refine ⟨hleft, ?_⟩
  show (x.name?.isSome && (x.name? == some "None")) = false
  rw [hright, Bool.and_false]

/-- What a target adds to a choice with nothing comes down to a pair. If the
    target is a choice with nothing itself, nothing comes twice, and the second
    one is dropped, on whichever side it was. -/
theorem Offers.distinct_eq (hx : x.IsPlain) (h : Offers x t) :
    IsPair x (distinct (t.alternatives ++ [nothing])) ∧
      IsPair x (distinct (nothing :: t.alternatives)) := by
  rcases hx.same_nothing with ⟨hleft, hright⟩
  have hself : same nothing nothing = true := rfl
  cases h with
  | itself =>
      rw [hx.single]
      exact ⟨Or.inl (by simp [distinct, hleft]), Or.inr (by simp [distinct, hright])⟩
  | choice spelling hpair =>
      rcases hpair with rfl | rfl
      · exact ⟨Or.inl (by simp [distinct, alternatives, hleft, hself]),
          Or.inr (by simp [distinct, alternatives, hright, hself])⟩
      · exact ⟨Or.inr (by simp [distinct, alternatives, hright, hself]),
          Or.inr (by simp [distinct, alternatives, hright, hself])⟩

/-- A pair is a choice. Fewer than two alternatives would not be one, and there
    a choice falls back to what it was made of. -/
theorem chosen_pair (spelling : Spelling) (ts : List Target)
    (h : IsPair x (distinct (ts.flatMap alternatives))) :
    ∃ pair, IsPair x pair ∧ chosen spelling ts = choice spelling pair := by
  rw [chosen]
  split
  · rename_i heq
    rw [heq] at h
    rcases h with h | h
    · exact nomatch h
    · exact nomatch h
  · rename_i heq
    rw [heq] at h
    rcases h with h | h
    · exact nomatch h
    · exact nomatch h
  · exact ⟨_, h, rfl⟩

/-- A choice with nothing offers what the target offers. This closes the circle:
    whatever was laid around before, the next choice is again a choice between
    one thing and nothing, and the three ways of writing it differ in the order
    alone. -/
theorem choice_offers (hx : x.IsPlain) (h : Offers x t) (form : ChoiceForm) :
    ∃ spelling pair, IsPair x pair ∧ form.of t = choice spelling pair := by
  have hlast : [t, nothing].flatMap alternatives = t.alternatives ++ [nothing] := by
    rw [List.flatMap_cons, List.flatMap_singleton]
    rfl
  have hfirst : [nothing, t].flatMap alternatives = nothing :: t.alternatives := by
    rw [List.flatMap_cons, List.flatMap_singleton]
    rfl
  rcases h.distinct_eq hx with ⟨left, right⟩
  cases form with
  | optional =>
      exact ⟨.listed, chosen_pair .listed [t, nothing] (by rw [hlast]; exact left)⟩
  | nothingLast =>
      exact ⟨_, chosen_pair _ [t, nothing] (by rw [hlast]; exact left)⟩
  | nothingFirst =>
      exact ⟨_, chosen_pair _ [nothing, t] (by rw [hfirst]; exact right)⟩

end

/-! ### Cores -/

theorem isPlain_of_getter {t : Target} {g : Getter} (h : t.getter? = some g) : t.IsPlain := by
  cases t with
  | integer => exact ⟨rfl, rfl, by decide⟩
  | real => exact ⟨rfl, rfl, by decide⟩
  | text => exact ⟨rfl, rfl, by decide⟩
  | bytes => exact ⟨rfl, rfl, by decide⟩
  | window => exact ⟨rfl, rfl, by decide⟩
  | storageClass => exact ⟨rfl, rfl, by decide⟩
  | _ => exact nomatch h

/-- A core is a choice between several things, or the kind of value that nothing
    is, or plain. Only a plain core takes part in choices with nothing; the
    other two have a constructor of their own in what wraps around them. -/
theorem IsCore.cases_plain {t : Target} (h : t.IsCore) : t.IsOpen ∨ t = .absence ∨ t.IsPlain := by
  cases h with
  | kind hg => exact Or.inr (Or.inr (isPlain_of_getter hg))
  | truth => exact Or.inr (Or.inr ⟨rfl, rfl, by decide⟩)
  | anything => exact Or.inr (Or.inr ⟨rfl, rfl, by decide⟩)
  | column => exact Or.inr (Or.inr ⟨rfl, rfl, by decide⟩)
  | unsupported typeName hname =>
      exact Or.inr (Or.inr ⟨rfl, rfl, fun heq => hname (Option.some.inj heq)⟩)
  | absence => exact Or.inr (Or.inl rfl)
  | several hopen => exact Or.inl hopen

theorem IsCore.something {t : Target} (h : t.IsCore) : t ≠ .nothing := by
  rintro rfl
  rcases h.cases_plain with hopen | habsence | hplain
  · exact nomatch hopen
  · exact nomatch habsence
  · exact absurd hplain.something (by decide)

end Target

namespace Column

open Target

/-! ### The conversion, layer by layer -/

theorem convert_named (c : Column) (name : Text) (t : Target) (ht : t ≠ .nothing) :
    c.convert (.named name t) = c.convert t := by
  rw [convert]
  exact ht

/-- The conversion to a choice with nothing asks for NULL first. Otherwise it
    takes the first alternative that is something, wherever nothing stands in
    the pair. -/
theorem convert_choice (c : Column) (x : Target) (hx : x.IsPlain) (spelling : Spelling)
    (pair : List Target) (h : IsPair x pair) (null : Bool) (hnull : c.isNull = .ok null) :
    c.convert (.choice spelling pair) = if null then .ok .null else c.convert x := by
  have hne : x ≠ .nothing := by
    rintro rfl
    exact absurd hx.something (by decide)
  -- One alternative of the two is something, so the choice is decided.
  have hdecided : isDecided pair = true := by
    rcases h with rfl | rfl
    · simp only [isDecided, List.countP_cons, hx.something]
      rfl
    · simp only [isDecided, List.countP_cons, hx.something]
      rfl
  have hsome : c.convertSome pair = c.convert x := by
    rcases h with rfl | rfl
    · rw [convertSome]
      exact hne
    · rw [convertSome, convertSome]
      exact hne
  rw [convert, hdecided, hsome, hnull]
  cases null with
  | false => rfl
  | true => rfl

/-- A choice between several things cannot be decided, and the target itself is
    what the fault shows. -/
theorem convert_open (c : Column) (t : Target) (h : t.IsOpen) :
    c.convert t = .error (.ambiguousTarget t) := by
  cases h with
  | mk spelling alternatives several =>
      have hopen : isDecided alternatives = false := beq_eq_false_iff_ne.mpr (Nat.ne_of_gt several)
      rw [convert, hopen]
      rfl

/-- What wrapping keeps, for a cell that is NULL or not. -/
structure Follows (c : Column) (null : Bool) (core t : Target) (nullable : Bool) : Prop where
  something : t ≠ .nothing
  convert_eq : c.convert t = if null && nullable then .ok .null else c.convert core
  /-- What is offered is converted like the core, unless the cell is NULL. -/
  offer : t.IsOpen ∨ t = .absence ∨
    ∃ x, x.IsPlain ∧ Offers x t ∧ (null = false → c.convert x = c.convert core)

/-- The conversion to a wrapped target follows its core, by induction on the
    layers. A new name keeps the value and starts over with what is offered,
    namely itself. A choice keeps what is offered and makes the target nullable,
    and its value is that of what is offered, which is the value of the core
    unless the cell is NULL. -/
theorem convert_wraps (c : Column) (null : Bool) (hnull : c.isNull = .ok null) (core t : Target)
    (nullable : Bool) (hcore : core.IsCore) (h : core.Wraps t nullable) :
    c.Follows null core t nullable := by
  induction h with
  | bare =>
      refine ⟨hcore.something, by rw [Bool.and_false]; rfl, ?_⟩
      rcases hcore.cases_plain with hopen | habsence | hplain
      · exact Or.inl hopen
      · exact Or.inr (Or.inl habsence)
      · exact Or.inr (Or.inr ⟨core, hplain, .itself, fun _ => rfl⟩)
  | @named t nullable name inner ih =>
      have heq := c.convert_named name t ih.something
      refine ⟨nofun, heq.trans ih.convert_eq, Or.inr (Or.inr ?_)⟩
      -- The name is offered itself, whatever it is a name for.
      refine ⟨.named name t, isPlain_named name t, .itself, ?_⟩
      -- If the cell is not NULL, the name is converted like what it names,
      -- whether or not this is nullable.
      rintro rfl
      exact heq.trans ih.convert_eq
  | @choice t nullable form inner closed something ih =>
      rcases ih.offer with hopen | habsence | ⟨x, hx, hoffers, hvalue⟩
      · exact absurd hopen closed
      · exact absurd habsence something
      · rcases choice_offers hx hoffers form with ⟨spelling, pair, hpair, heq⟩
        rw [heq]
        refine ⟨nofun, ?_, Or.inr (Or.inr ⟨x, hx, .choice spelling hpair, hvalue⟩)⟩
        rw [c.convert_choice x hx spelling pair hpair null hnull, Bool.and_true]
        cases null with
        | false => exact hvalue rfl
        | true => rfl
  | noChoice form inner ih =>
      rw [choice_absence]
      exact ih

/-- What a column converts to at a core, and at the targets that are made of
    it. -/
structure ConvertsAs (c : Column) (core : Target) : Prop where
  view : core = .anything ∨ core = .column → c.convert core = .ok (.column c.id c.index)
  getter : ∀ g, core.getter? = some g → c.convert core = c.get g
  /-- A truth value is whether the integer is zero. -/
  truth : core = .truth → ∀ n, c.get .int64 = .ok (.integer n) →
    c.convert core = .ok (.truth (n != 0))
  untruth : core = .truth → ∀ fault, c.get .int64 = .error fault → c.convert core = .error fault
  unsupported : (∃ typeName, core = .unsupported typeName) ∨ core = .absence →
    c.convert core = .error (.noConversion core)
  ambiguous : core.IsOpen → c.convert core = .error (.ambiguousTarget core)
  /-- Layers do not matter unless the cell is NULL. -/
  stored : ∀ k t nullable, c.read Cell.storageClass = .ok k → k ≠ .null → core.Wraps t nullable →
    c.convert t = c.convert core
  /-- NULL becomes nothing if nothing is among what is left to choose. -/
  null : ∀ t, c.read Cell.storageClass = .ok .null → core.Wraps t true → c.convert t = .ok .null
  bound : ∀ t, c.read Cell.storageClass = .ok .null → core.Wraps t false →
    c.convert t = c.convert core

/-- Whether a cell is NULL is a question of its storage class. -/
theorem isNull_of_class (c : Column) (k : StorageClass) (h : c.read Cell.storageClass = .ok k) :
    c.isNull = .ok (k == .null) := by
  rw [isNull, h]
  rfl

/-- A column converts to a wrapped target as it does to the core, whatever the
    layers are and however many. NULL makes the one difference: it becomes
    nothing if nothing is left to choose anywhere around the core, also where
    the core could not be converted to at all. -/
theorem converts_through (c : Column) (core : Target) (hcore : core.IsCore) :
    c.ConvertsAs core := by
  have follows : ∀ k t nullable, c.read Cell.storageClass = .ok k → core.Wraps t nullable →
      c.convert t = if (k == .null) && nullable then .ok .null else c.convert core :=
    fun k t nullable hclass hwraps =>
      (c.convert_wraps _ (c.isNull_of_class k hclass) core t nullable hcore hwraps).convert_eq
  refine ⟨?_, c.convert_eq_getter core, ?_, ?_, ?_, c.convert_open core, ?_, ?_, ?_⟩
  · rintro (rfl | rfl)
    · rw [convert]
      rfl
    · rw [convert]
      rfl
  · -- A truth value and the getter read the same integer, so they fail
    -- together.
    rintro rfl n hget
    rw [get] at hget
    rw [convert]
    rcases hread : c.read Cell.int64 with fault | m
    · rw [hread] at hget
      cases hget
    · rw [hread] at hget
      cases hget
      rfl
  · rintro rfl fault hget
    rw [get] at hget
    rw [convert]
    rcases hread : c.read Cell.int64 with fault' | m
    · rw [hread] at hget
      cases hget
      rfl
    · rw [hread] at hget
      cases hget
  · rintro (⟨typeName, rfl⟩ | rfl)
    · rw [convert]
    · rw [convert]
  · intro k t nullable hclass hstored hwraps
    rw [follows k t nullable hclass hwraps, beq_eq_false_iff_ne.mpr hstored, Bool.false_and]
    rfl
  · intro t hclass hwraps
    exact follows .null t true hclass hwraps
  · intro t hclass hwraps
    exact follows .null t false hclass hwraps

/-- Lists under a new name, or nothing, under another new name, or nothing
    again. -/
def labels : Target :=
  ChoiceForm.optional.of (.named (Text.ofString "Labels")
    (ChoiceForm.nothingFirst.of (.named (Text.ofString "Tags") (.unsupported "list"))))

/-- NULL becomes nothing although there are no lists to convert to. -/
theorem converts_through_labels : (Target.unsupported "list").IsCore ∧
    (Cell.null.alone 0 0).convert labels = .ok .null ∧
    ((Cell.integer 7).alone 0 0).convert labels =
      .error (.noConversion (.unsupported "list")) := by
  have core : (Target.unsupported "list").IsCore := .unsupported "list" (by decide)
  have wraps : (Target.unsupported "list").Wraps labels true :=
    .choice .optional (.named _ (.choice .nothingFirst (.named _ .bare) nofun nofun)) nofun nofun
  have stored := converts_through ((Cell.integer 7).alone 0 0) (.unsupported "list") core
  refine ⟨core, (converts_through _ _ core).null labels rfl wraps, ?_⟩
  rw [stored.stored .integer labels true rfl (by decide) wraps]
  exact stored.unsupported (Or.inl ⟨"list", rfl⟩)

end Column

end RowScope
