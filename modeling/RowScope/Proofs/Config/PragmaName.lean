import RowScope.Config.Load
import RowScope.Proofs.Config.Pragma
import RowScope.Proofs.Text.Decoding

/-!
# Names of Pragmas

Which names a configuration accepts, and what they can do to the SQL they are
spliced into. A name is accepted if it is an identifier. It is accepted as well
if it is an identifier with a line feed behind it, since the end that is asked
for may be that of a last line.

An accepted name has no blank in it, with or without the line feed. So a reader
who takes a statement apart at the first equals sign between blanks finds the
name as it was given, and no more: nothing of the name can pass for the value,
or for the end of the statement.

A configuration that is read from a file has its names checked on the way, where
they need not even be texts. It is the same check, so a configuration from a
file has no other names either.

## Main definitions

* `IsNameStart`, `IsNameCharacter`: The characters of an identifier.
* `IsIdentifier`: One of the first kind, then any number of the second.
* `IsPragmaName`: What is accepted.
* `Text.StandsBefore`: The text up to the first occurrence of another one.
* `Config.Names`: What stands in the place of the name in a statement.

## Theorems

* `isPragmaName_iff`: The check accepts these names and no others.
* `Config.make_isOk_iff`, `Config.make_refused`: When a configuration is made,
  and if not, why.
* `Config.load_accepted`: Configurations that are read from files.
* `Config.pragmaStatements_named`: What stands in the place of the name.
* `Config.pragma_names_checked`: All of it.
-/

namespace RowScope

/-- A letter or underscore. -/
def IsNameStart (c : Char) : Prop :=
  'A' ≤ c ∧ c ≤ 'Z' ∨ 'a' ≤ c ∧ c ≤ 'z' ∨ c = '_'

/-- A letter, digit or underscore. -/
def IsNameCharacter (c : Char) : Prop :=
  IsNameStart c ∨ '0' ≤ c ∧ c ≤ '9'

/-- A letter or underscore, then letters, digits and underscores. -/
def IsIdentifier (name : Text) : Prop :=
  ∃ (c : Char) (cs : List Char), name = Text.ofChars (c :: cs) ∧ IsNameStart c ∧
    ∀ d ∈ cs, IsNameCharacter d

/-- An identifier, which may have a line feed behind it. -/
def IsPragmaName (name : Text) : Prop :=
  IsIdentifier name ∨ ∃ base, IsIdentifier base ∧ name = base ++ [CodePoint.ofChar '\n']

/-- A text is what stands before the first occurrence of a mark. -/
structure Text.StandsBefore (mark t front : Text) : Prop where
  occurs : ∃ back, t = front ++ mark ++ back
  first : ∀ earlier back, t = earlier ++ mark ++ back → front.length ≤ earlier.length

/-- What stands in a statement between the keyword and the first equals sign
    between blanks. -/
def Config.Names (name sql : Text) : Prop :=
  ∃ rest, sql = Text.ofString "PRAGMA " ++ rest ∧
    Text.StandsBefore (Text.ofString " = ") rest name

/-! ### Characters of names -/

/-- The check compares numbers, and a letter is said by its bounds as a
    character; these are the same comparisons, the underscore being the one
    number that stands alone. -/
theorem startsName_ofChar (c : Char) :
    startsName (CodePoint.ofChar c) = true ↔ IsNameStart c := by
  have hval : (CodePoint.ofChar c).val = c.toNat := rfl
  have hunderscore : c.toNat = 95 ↔ c = '_' :=
    ⟨fun h => Char.toNat_inj.mp h, fun h => h ▸ rfl⟩
  simp only [startsName, CodePoint.isLetter, IsNameStart, hval, hunderscore, Bool.or_eq_true,
    Bool.and_eq_true, decide_eq_true_eq, beq_iff_eq, Char.le_def, UInt32.le_iff_toNat_le, or_assoc]
  rfl

theorem continuesName_ofChar (c : Char) :
    continuesName (CodePoint.ofChar c) = true ↔ IsNameCharacter c := by
  have hval : (CodePoint.ofChar c).val = c.toNat := rfl
  simp only [continuesName, CodePoint.isDigit, IsNameCharacter, startsName_ofChar, hval,
    Bool.or_eq_true, Bool.and_eq_true, decide_eq_true_eq, Char.le_def, UInt32.le_iff_toNat_le]
  rfl

/-- What an identifier is made of are characters. The names that are checked are
    texts, which may have surrogates in them, and so it takes a word to come
    from a code point back to a character. -/
theorem continuesName_not_surrogate (p : CodePoint) (h : continuesName p = true) :
    p.isSurrogate = false := by
  simp only [continuesName, startsName, CodePoint.isLetter, CodePoint.isDigit, Bool.or_eq_true,
    Bool.and_eq_true, decide_eq_true_eq, beq_iff_eq] at h
  rw [Text.isSurrogate_eq_false_iff]
  omega

/-! ### The check -/

/-- What may stand behind the first character: characters of a name, and then
    the end, or a line feed and then the end. The line feed is looked for at
    each place, as the check goes through the text from the front. -/
theorem isNameTail_iff (t : Text) : isNameTail t = true ↔
    ∃ cs : List Char, (∀ d ∈ cs, IsNameCharacter d) ∧
      (t = Text.ofChars cs ∨ t = Text.ofChars cs ++ [CodePoint.ofChar '\n']) := by
  induction t with
  | nil =>
      refine ⟨fun _ => ⟨[], fun d hd => absurd hd List.not_mem_nil, Or.inl rfl⟩, fun _ => rfl⟩
  | cons p rest ih =>
      rw [isNameTail, Bool.or_eq_true, Bool.and_eq_true, Bool.and_eq_true, beq_iff_eq,
        List.isEmpty_iff, ih]
      constructor
      · -- Either one more character of the name is read, or the line feed that
        -- ends it.
        rintro (⟨hp, cs, hcs, hrest⟩ | ⟨hfeed, rfl⟩)
        · rcases p.exists_char (continuesName_not_surrogate p hp) with ⟨c, rfl⟩
          refine ⟨c :: cs, List.forall_mem_cons.mpr ⟨(continuesName_ofChar c).mp hp, hcs⟩, ?_⟩
          rcases hrest with rfl | rfl
          · exact Or.inl rfl
          · exact Or.inr rfl
        · refine ⟨[], fun d hd => absurd hd List.not_mem_nil, Or.inr ?_⟩
          exact congrArg (fun q => [q]) (Fin.ext hfeed)
      · rintro ⟨cs, hcs, ht⟩
        rcases cs with _ | ⟨c, cs⟩
        · rcases ht with hnil | hfeed
          · cases hnil
          · cases hfeed
            exact Or.inr ⟨rfl, rfl⟩
        · rw [List.forall_mem_cons] at hcs
          rcases ht with ht | ht
          · cases ht
            exact Or.inl ⟨(continuesName_ofChar c).mpr hcs.1, cs, hcs.2, Or.inl rfl⟩
          · cases ht
            exact Or.inl ⟨(continuesName_ofChar c).mpr hcs.1, cs, hcs.2, Or.inr rfl⟩

/-- The check accepts identifiers, and identifiers with a line feed behind them,
    and no other texts. -/
theorem isPragmaName_iff (name : Text) : isPragmaName name = true ↔ IsPragmaName name := by
  rcases name with _ | ⟨p, rest⟩
  · refine ⟨fun h => Bool.noConfusion h, ?_⟩
    rintro (⟨c, cs, hname, -⟩ | ⟨base, -, hname⟩)
    · cases hname
    · exact absurd hname.symm (List.append_ne_nil_of_right_ne_nil base (List.cons_ne_nil _ _))
  · rw [isPragmaName, Bool.and_eq_true, isNameTail_iff]
    constructor
    · rintro ⟨hp, cs, hcs, hrest⟩
      -- What starts a name may continue one, and is therefore no surrogate.
      have hcontinues : continuesName p = true := by rw [continuesName, hp, Bool.true_or]
      rcases p.exists_char (continuesName_not_surrogate p hcontinues) with ⟨c, rfl⟩
      have hidentifier : IsIdentifier (Text.ofChars (c :: cs)) :=
        ⟨c, cs, rfl, (startsName_ofChar c).mp hp, hcs⟩
      rcases hrest with rfl | rfl
      · exact Or.inl hidentifier
      · exact Or.inr ⟨_, hidentifier, rfl⟩
    · rintro (⟨c, cs, hname, hc, hcs⟩ | ⟨base, ⟨c, cs, rfl, hc, hcs⟩, hname⟩)
      · cases hname
        exact ⟨(startsName_ofChar c).mpr hc, cs, hcs, Or.inl rfl⟩
      · cases hname
        exact ⟨(startsName_ofChar c).mpr hc, cs, hcs, Or.inr rfl⟩

/-- All of an identifier could stand behind its first character. -/
theorem IsIdentifier.continues {name : Text} (h : IsIdentifier name) :
    ∀ p ∈ name, continuesName p = true := by
  rcases h with ⟨c, cs, rfl, hc, hcs⟩
  intro p hp
  rcases List.mem_map.mp hp with ⟨d, hd, rfl⟩
  rw [continuesName_ofChar]
  rcases List.mem_cons.mp hd with rfl | hd
  · exact Or.inl hc
  · exact hcs d hd

/-- No blank is in an accepted name. The line feed, which the check lets
    through, is not one of the blanks that separate a name from its value. -/
theorem IsPragmaName.blank_not_mem {name : Text} (h : IsPragmaName name) :
    CodePoint.ofChar ' ' ∉ name := by
  have hidentifier : ∀ base, IsIdentifier base → CodePoint.ofChar ' ' ∉ base :=
    fun base hbase hmem => absurd (hbase.continues _ hmem) (by decide)
  rcases h with h | ⟨base, hbase, rfl⟩
  · exact hidentifier name h
  · rw [List.mem_append, not_or]
    exact ⟨hidentifier base hbase, by decide⟩

/-! ### Configurations -/

/-- A mark occurs first behind a text without the mark's first character. -/
theorem Text.standsBefore_of_not_mem (p : CodePoint) (mark front back : Text) (h : p ∉ front) :
    StandsBefore (p :: mark) (front ++ (p :: mark) ++ back) front := by
  refine ⟨⟨back, rfl⟩, fun earlier later heq => ?_⟩
  rw [List.append_assoc, List.append_assoc] at heq
  rcases List.append_eq_append_iff.mp heq with ⟨more, hearlier, -⟩ | ⟨more, hfront, hmark⟩
  · rw [hearlier, List.length_append]
    exact Nat.le_add_right _ _
  · -- A mark that occurs earlier has its first character before the end of the
    -- text.
    rcases more with _ | ⟨q, more⟩
    · exact Nat.le_of_eq (by rw [hfront, List.append_nil])
    · rw [List.cons_append, List.cons_append, List.cons.injEq] at hmark
      rw [hfront, hmark.1] at h
      exact absurd (List.mem_append_right earlier List.mem_cons_self) h

namespace Config

/-- A configuration is made if and only if all names of its pragmas are
    accepted. The check looks for a name to refuse, so there is none to be found
    exactly if all are accepted. -/
theorem make_isOk_iff (timeout : Binary64) (readOnly : Bool) (pragmas : Entries) :
    (∃ c, make timeout readOnly pragmas = .ok c) ↔ ∀ p ∈ pragmas, IsPragmaName p.1 := by
  have hfind : pragmas.find? (fun p => !isPragmaName p.1) = none ↔
      ∀ p ∈ pragmas, IsPragmaName p.1 := by
    simp only [List.find?_eq_none, Bool.not_eq_true', Bool.not_eq_false, isPragmaName_iff]
  rw [← hfind]
  unfold make
  split
  · rename_i p hfound
    rw [hfound]
    constructor
    · rintro ⟨c, hc⟩
      cases hc
    · intro hnone
      cases hnone
  · rename_i hfound
    exact ⟨fun _ => hfound, fun _ => ⟨⟨timeout, readOnly, pragmas⟩, rfl⟩⟩

/-- A configuration that is not made has a name that is not accepted, and the
    first such name is the reason. -/
theorem make_refused (timeout : Binary64) (readOnly : Bool) (pragmas : Entries) (name : Text)
    (h : make timeout readOnly pragmas = .error name) :
    ∃ before value after, pragmas = before ++ (name, value) :: after ∧
      (∀ p ∈ before, IsPragmaName p.1) ∧ ¬ IsPragmaName name := by
  unfold make at h
  split at h
  · rename_i p hfind
    cases h
    rcases List.find?_eq_some_iff_append.mp hfind with ⟨hp, before, after, heq, hbefore⟩
    refine ⟨before, p.2, after, heq, fun q hq => ?_, fun haccepted => ?_⟩
    · have hq := hbefore q hq
      rw [Bool.not_not] at hq
      exact (isPragmaName_iff q.1).mp hq
    · rw [(isPragmaName_iff p.1).mpr haccepted] at hp
      cases hp
  · cases h

/-- A configuration that is made has what it was made of, and nothing is added,
    dropped or mended on the way. -/
theorem make_eq_ok {timeout : Binary64} {readOnly : Bool} {pragmas : Entries} {c : Config}
    (h : make timeout readOnly pragmas = .ok c) : c = ⟨timeout, readOnly, pragmas⟩ := by
  unfold make at h
  split at h
  · cases h
  · cases h
    rfl

theorem make_accepted {timeout : Binary64} {readOnly : Bool} {pragmas : Entries} {c : Config}
    (h : make timeout readOnly pragmas = .ok c) : ∀ p ∈ c.pragmas, IsPragmaName p.1 := by
  rw [make_eq_ok h]
  exact (make_isOk_iff timeout readOnly pragmas).mp ⟨c, h⟩

end Config

/-! ### Configurations from files -/

/-- What gets through the check of a file has accepted names. A name that is not
    even a text is refused before its characters are looked at. -/
theorem checkNames_accepted (entries : List (LooseName × Setting)) (pragmas : Entries)
    (h : checkNames entries = .ok pragmas) : ∀ p ∈ pragmas, IsPragmaName p.1 := by
  induction entries generalizing pragmas with
  | nil =>
      cases h
      exact fun p hp => absurd hp List.not_mem_nil
  | cons entry rest ih =>
      rcases entry with ⟨_ | name, s⟩
      · cases h
      · rw [checkNames] at h
        split at h
        · -- The name of this entry was looked at; those of the others are known
          -- by induction.
          rename_i accepted
          rcases hrest : checkNames rest with f | others
          · rw [hrest] at h
            cases h
          · rw [hrest] at h
            cases h
            exact List.forall_mem_cons.mpr ⟨(isPragmaName_iff name).mp accepted, ih others hrest⟩
        · cases h

/-- What comes out of two steps comes out of the second one. -/
theorem exists_of_bind_ok {ε α β : Type} {x : Except ε α} {f : α → Except ε β} {b : β}
    (h : x >>= f = .ok b) : ∃ a, f a = .ok b := by
  rcases x with error | a
  · cases h
  · exact ⟨a, h⟩

namespace Config

/-- A configuration that is read from entries has accepted names. The entries
    may set the connection, the timeout and the pragmas or leave them out, and
    each that is left out has a default, but on all of these ways the names are
    checked last. -/
theorem ofEntries_accepted (entries : Entries) (c : Config) (h : ofEntries entries = .ok c) :
    ∀ p ∈ c.pragmas, IsPragmaName p.1 := by
  have last : ∀ timeout readOnly pragmas,
      (do return ⟨timeout, readOnly, ← checkNames pragmas⟩ : Except ConfigFault Config) = .ok c →
        ∀ p ∈ c.pragmas, IsPragmaName p.1 := by
    intro timeout readOnly pragmas h
    rcases hchecked : checkNames pragmas with f | checked
    · rw [hchecked] at h
      cases h
    · rw [hchecked] at h
      cases h
      exact checkNames_accepted pragmas checked hchecked
  -- Whatever the connection, the timeout and the pragmas are, the names are
  -- checked at the end.
  unfold ofEntries at h
  dsimp only at h
  split at h
  all_goals
    rcases exists_of_bind_ok h with ⟨connection, h⟩
    split at h
    all_goals
      rcases exists_of_bind_ok h with ⟨timeout, h⟩
      split at h
      all_goals
        rcases exists_of_bind_ok h with ⟨pragmas, h⟩
        exact last timeout _ pragmas h

/-- A configuration that is read from a file has accepted names, as it is made
    of the entries of the file. -/
theorem load_accepted (file : ConfigFile) (c : Config) (h : load file = .ok c) :
    ∀ p ∈ c.pragmas, IsPragmaName p.1 := by
  cases file with
  | content bytes =>
      rw [load] at h
      split at h
      · cases h
      · cases h
      · cases h
      · rename_i entries _
        exact ofEntries_accepted entries c h
  | _ => cases h

/-! ### Statements -/

/-- Each statement is that of its pragma, so what is known of one statement
    holds of all of them. -/
theorem pragmaStatements_each (c : Config) (sqls : List Text) (h : c.pragmaStatements = .ok sqls) :
    List.Forall₂ (fun p sql => pragmaStatement p.1 p.2 = .ok sql) c.pragmas sqls := by
  unfold pragmaStatements at h
  -- From here on it is a matter of lists.
  generalize c.pragmas = pragmas at h ⊢
  induction pragmas generalizing sqls with
  | nil =>
      cases h
      exact .nil
  | cons p rest ih =>
      rw [List.mapM_cons] at h
      rcases hsql : pragmaStatement p.1 p.2 with f | sql
      · rw [hsql] at h
        cases h
      · rcases hrest : rest.mapM (fun p => pragmaStatement p.1 p.2) with f | others
        · rw [hsql, hrest] at h
          cases h
        · rw [hsql, hrest] at h
          cases h
          exact .cons hsql (ih others hrest)

/-- What stands in a statement between the keyword and the first equals sign is
    the name. An equals sign between blanks may well occur in the value, but
    none occurs earlier, since it would take a blank in the name. -/
theorem pragmaStatement_named (name : Text) (accepted : IsPragmaName name) (s : Setting)
    (sql : Text) (h : pragmaStatement name s = .ok sql) : Names name sql := by
  unfold pragmaStatement at h
  rcases hvalue : pragmaValue s with f | value
  · rw [hvalue] at h
    cases h
  · rw [hvalue] at h
    cases h
    refine ⟨name ++ Text.ofString " = " ++ (value ++ Text.ofString ";"), ?_, ?_⟩
    · simp only [List.append_assoc]
    · exact Text.standsBefore_of_not_mem (CodePoint.ofChar ' ') (Text.ofString "= ") name _
        accepted.blank_not_mem

/-- The statements of a configuration with accepted names have these names in
    their places. -/
theorem pragmaStatements_named (c : Config) (accepted : ∀ p ∈ c.pragmas, IsPragmaName p.1)
    (sqls : List Text) (h : c.pragmaStatements = .ok sqls) :
    List.Forall₂ (fun p sql => IsPragmaName p.1 ∧ Names p.1 sql) c.pragmas sqls := by
  refine ((List.forall₂_and_left c.pragmas sqls).mpr
    ⟨accepted, c.pragmaStatements_each sqls h⟩).imp ?_
  rintro p sql ⟨hp, hsql⟩
  exact ⟨hp, pragmaStatement_named p.1 hp p.2 sql hsql⟩

/-- A configuration is made exactly if all its names are identifiers, up to a
    line feed at the end, and else the first name that is not is refused. In a
    statement of a configuration that was made, or read from a file, nothing but
    the name stands where the name belongs.

    The line feed gets into the statement with the name. The last part holds
    with it, because it is no blank; that the name is one identifier does
    not. -/
theorem pragma_names_checked (timeout : Binary64) (readOnly : Bool) (pragmas : Entries) :
    ((∃ c, make timeout readOnly pragmas = .ok c) ↔ ∀ p ∈ pragmas, IsPragmaName p.1) ∧
    (∀ name, make timeout readOnly pragmas = .error name →
      ∃ before value after, pragmas = before ++ (name, value) :: after ∧
        (∀ p ∈ before, IsPragmaName p.1) ∧ ¬ IsPragmaName name) ∧
    (∀ c, make timeout readOnly pragmas = .ok c → c.pragmas = pragmas) ∧
    ∀ c sqls, (make timeout readOnly pragmas = .ok c ∨ ∃ file, load file = .ok c) →
      c.pragmaStatements = .ok sqls →
        List.Forall₂ (fun p sql => IsPragmaName p.1 ∧ Names p.1 sql) c.pragmas sqls := by
  refine ⟨make_isOk_iff timeout readOnly pragmas, make_refused timeout readOnly pragmas,
    fun c hmade => by rw [make_eq_ok hmade], ?_⟩
  rintro c sqls (hmade | ⟨file, hloaded⟩) hsqls
  · exact pragmaStatements_named c (make_accepted hmade) sqls hsqls
  · exact pragmaStatements_named c (load_accepted file c hloaded) sqls hsqls

/-- A pragma whose name ends in a line feed. -/
def linefedPragma : Entries := [(Text.ofString "cache_size\n", .integer 1)]

theorem pragma_names_checked_linefed :
    make standardTimeout false linefedPragma = .ok ⟨standardTimeout, false, linefedPragma⟩ ∧
      (⟨standardTimeout, false, linefedPragma⟩ : Config).pragmaStatements =
        .ok [Text.ofString "PRAGMA cache_size\n = 1;"] ∧
      List.Forall₂ (fun p sql => IsPragmaName p.1 ∧ Names p.1 sql) linefedPragma
        [Text.ofString "PRAGMA cache_size\n = 1;"] :=
  ⟨rfl, rfl, (pragma_names_checked standardTimeout false linefedPragma).2.2.2 _ _ (Or.inl rfl) rfl⟩

/-- The name that is accepted is no identifier, and its line feed gets into the
    statement. -/
theorem linefed_name_accepted :
    (∃ c, make standardTimeout false linefedPragma = .ok c ∧
      c.pragmaStatements = .ok [Text.ofString "PRAGMA cache_size\n = 1;"]) ∧
      ∃ p ∈ linefedPragma, ¬ IsIdentifier p.1 := by
  refine ⟨⟨_, rfl, rfl⟩, _, List.mem_cons_self, fun hidentifier => ?_⟩
  have hfeed : CodePoint.ofChar '\n' ∈ Text.ofString "cache_size\n" := by decide
  exact absurd (hidentifier.continues _ hfeed) (by decide)

end Config

end RowScope
