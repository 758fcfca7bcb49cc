import RowScope.Proofs.Cell.Overlong
import RowScope.Proofs.Column.Reading
import RowScope.Proofs.Number.Integers
import RowScope.Proofs.Text.Decoding
import RowScope.Session.Command

/-!
# What Conversions Deliver

Every cell that an engine delivers can be read in every way, with one exception:
a text or blob that starts with a whole number of too many digits cannot be read
as an integer. The readings as a real, as text and as bytes deliver even then,
and so do all readings of all other cells.

For texts this is because decoding leaves no surrogate that cannot be encoded
again; for numbers because 64 bits are few. What a column answers follows from
what its cell does, since every getter is a projection of the cell and every
conversion a getter.

## Main definitions

* `Cell.IsDelivered`: What an engine delivers.
* `Projection.readsInteger`, `Getter.readsInteger`, `Target.readsInteger`: The
  integer readings.
* `Target.isKind`: The targets that are kinds of values.

## Theorems

* `isStored_of_isDelivered`: What is delivered is stored by one of the five
  classes.
* `bytes?_isOk`, `text?_isOk`, `double_isOk`: The readings that always deliver.
* `int64_isOk_iff`: The one that does not.
* `conversions_deliver`: All readings of a cell and of a column over it.
-/

namespace RowScope

/-- What an engine delivers: nothing, integers of 64 bits, reals, texts decoded
    from any bytes, and blobs. -/
inductive Cell.IsDelivered : Cell → Prop
  | null : IsDelivered .null
  | integer (n : Int) (lower : minInt64 ≤ n) (upper : n ≤ maxInt64) : IsDelivered (.integer n)
  | real (x : Binary64) : IsDelivered (.real x)
  | text (bytes : Bytes) : IsDelivered (.text (Text.decode bytes))
  | blob (bytes : Bytes) : IsDelivered (.blob bytes)

/-- The projections that are integers. -/
def Projection.readsInteger : Projection → Bool
  | .int32 => true
  | .int64 => true
  | _ => false

/-- The getters that read an integer. -/
def Getter.readsInteger : Getter → Bool
  | .int32 => true
  | .uint32 => true
  | .int64 => true
  | .long => true
  | _ => false

/-- The targets that read an integer. -/
def Target.readsInteger : Target → Bool
  | .integer => true
  | .truth => true
  | _ => false

/-- The targets that are kinds of values. -/
def Target.isKind : Target → Bool
  | .integer => true
  | .real => true
  | .text => true
  | .bytes => true
  | .window => true
  | .truth => true
  | .storageClass => true
  | _ => false

theorem isOk_map {ε α β : Type} (x : Except ε α) (f : α → β) : (x.map f).isOk = x.isOk := by
  rcases x with e | a
  · rfl
  · rfl

/-- A reading followed by something that cannot fail. -/
theorem isOk_bind_pure {ε α β : Type} (x : Except ε α) (f : α → β) :
    (do let a ← x; return f a : Except ε β).isOk = x.isOk := by
  rcases x with e | a
  · rfl
  · rfl

theorem isOk_ofCellReading {α : Type} (x : Except CellFault α) :
    (ofCellReading x).isOk = x.isOk := by
  rcases x with e | a
  · rfl
  · rfl

namespace Cell

/-- What is delivered is of one of the five storage classes, and its texts can
    be encoded. This is the only place at which it matters that texts are
    decoded from bytes: a text that a program makes up may hold a surrogate that
    has no encoding, and its bytes could then not be read. -/
theorem isStored_of_isDelivered (c : Cell) (hc : c.IsDelivered) : c.IsStored := by
  cases hc with
  | null => trivial
  | integer n lower upper =>
      refine ⟨lower, ?_⟩
      unfold maxInt64 at upper
      omega
  | real x => trivial
  | text bytes => exact Text.decode_isEncodable bytes
  | blob bytes => trivial

theorem encoded_isOk (t : Text) (ht : t.IsEncodable) : (encoded t).isOk = true := by
  rcases Option.isSome_iff_exists.mp ((Text.encode_isSome_iff t).mpr ht) with ⟨bytes, hbytes⟩
  rw [encoded, hbytes]
  rfl

/-- A stored integer has 64 bits. -/
theorem isStored_bounds (n : Int) (hc : (Cell.integer n).IsStored) :
    minInt64 ≤ n ∧ n ≤ maxInt64 := by
  rcases hc with ⟨lower, upper⟩
  refine ⟨lower, ?_⟩
  unfold maxInt64
  omega

/-- The text of an integer and that of a real are made of characters. -/
theorem ofInt_isEncodable (n : Int) : (Text.ofInt n).IsEncodable := by
  cases n with
  | ofNat n => exact Text.ofChars_isEncodable (Nat.toDigits 10 n)
  | negSucc n => exact Text.ofChars_isEncodable ('-' :: Nat.toDigits 10 (n + 1))

theorem real_isEncodable (x : Binary64) : x.text.IsEncodable := by
  unfold Binary64.text
  split
  · exact Text.ofChars_isEncodable _
  · split
    · exact Text.ofChars_isEncodable _
    · exact Text.ofChars_isEncodable _

theorem storageClass_isOk (c : Cell) (hc : c.IsStored) : c.storageClass.isOk = true := by
  cases c with
  | foreign typeName content => exact False.elim hc
  | _ => rfl

/-- The text of a cell can always be read. Only integers can fail to have one,
    for want of size, and 64 bits stay within it. -/
theorem text?_isOk (c : Cell) (hc : c.IsStored) : c.text?.isOk = true := by
  cases c with
  | integer n =>
      rcases isStored_bounds n hc with ⟨lower, upper⟩
      rw [text?, isOk_map, integerText_of_bounds n lower upper]
      rfl
  | foreign typeName content => exact False.elim hc
  | _ => rfl

/-- The bytes of a cell can always be read. They are those of a blob, or the
    encoding of a text that is there or is rendered; what is rendered is made of
    characters and what is there is stored, so both can be encoded. -/
theorem bytes?_isOk (c : Cell) (hc : c.IsStored) : c.bytes?.isOk = true := by
  -- What is not bytes already is encoded, and can be.
  cases c with
  | integer n =>
      rcases isStored_bounds n hc with ⟨lower, upper⟩
      rw [bytes?, integerText_of_bounds n lower upper]
      show (do let bytes ← encoded (Text.ofInt n); return some bytes : Except _ _).isOk = true
      rw [isOk_bind_pure]
      exact encoded_isOk _ (ofInt_isEncodable n)
  | real x =>
      rw [bytes?, isOk_map]
      exact encoded_isOk _ (real_isEncodable x)
  | text t =>
      rw [bytes?, isOk_map]
      exact encoded_isOk t hc
  | window bytes => exact False.elim hc
  | foreign typeName content => exact False.elim hc
  | _ => rfl

/-- A cell can always be read as a real. An integer of 64 bits is below the
    largest real, and the scan of a text has an answer for every text, zero if
    nothing leads. -/
theorem double_isOk (c : Cell) (hc : c.IsStored) : c.double.isOk = true := by
  cases c with
  | integer n =>
      rcases isStored_bounds n hc with ⟨lower, upper⟩
      rw [double, doubleOfInt_of_bounds n lower upper]
      rfl
  | foreign typeName content => exact False.elim hc
  | _ => rfl

/-- A cell can be read as an integer if and only if its text is not overlong.
    Integers and reals need no scan; a text and a blob are scanned alike, the
    blob after it is decoded, and the scan fails on nothing but the number of
    digits. -/
theorem int64_isOk_iff (c : Cell) (hc : c.IsStored) :
    c.int64.isOk = true ↔ ¬ c.IsOverlong := by
  cases c with
  | null => exact ⟨fun _ hover => hover, fun _ => rfl⟩
  | integer n => exact ⟨fun _ hover => hover, fun _ => rfl⟩
  | real x => exact ⟨fun _ hover => hover, fun _ => rfl⟩
  -- Texts and blobs go through the same scan.
  | text t => exact textToInt64_isOk_iff t
  | blob bytes => exact textToInt64_isOk_iff (Text.decode bytes)
  | window bytes => exact False.elim hc
  | foreign typeName content => exact False.elim hc

theorem int64_of_isOverlong (c : Cell) (h : c.IsOverlong) : c.int64 = .error .tooManyDigits := by
  cases c with
  | text t => exact textToInt64_of_isOverlong t h
  | blob bytes => exact textToInt64_of_isOverlong (Text.decode bytes) h
  | _ => exact False.elim h

/-- A projection delivers if and only if it is no integer or the cell is not
    overlong. Every projection is one of four readings with a constructor around
    it, and only that of the integer can fail. -/
theorem project_isOk_iff (c : Cell) (hc : c.IsStored) (p : Projection) :
    (c.project p).isOk = true ↔ (p.readsInteger = true → ¬ c.IsOverlong) := by
  cases p with
  | int32 =>
      rw [project, isOk_bind_pure, int32, isOk_map, int64_isOk_iff c hc]
      exact ⟨fun h _ => h, fun h => h rfl⟩
  | int64 =>
      rw [project, isOk_bind_pure, int64_isOk_iff c hc]
      exact ⟨fun h _ => h, fun h => h rfl⟩
  -- The other projections read no integer, and so the condition is void.
  | storageClass =>
      rw [project, isOk_bind_pure]
      exact ⟨fun _ h => Bool.noConfusion h, fun _ => storageClass_isOk c hc⟩
  | double =>
      rw [project, isOk_bind_pure]
      exact ⟨fun _ h => Bool.noConfusion h, fun _ => double_isOk c hc⟩
  | text =>
      rw [project, isOk_bind_pure]
      exact ⟨fun _ h => Bool.noConfusion h, fun _ => text?_isOk c hc⟩
  | bytes =>
      rw [project, isOk_bind_pure]
      exact ⟨fun _ h => Bool.noConfusion h, fun _ => bytes?_isOk c hc⟩
  | byteCount =>
      rw [project, isOk_bind_pure, byteCount, isOk_map]
      exact ⟨fun _ h => Bool.noConfusion h, fun _ => bytes?_isOk c hc⟩

end Cell

/-- A getter delivers if and only if it reads no integer or the cell is not
    overlong. The index is not read from the cell at all, and the name, which
    has no projection, is left out. -/
theorem Getter.projection?_isOk_iff (g : Getter) (index : Int) (c : Cell) (hc : c.IsStored)
    (answer : Except CellFault Value) (hg : g.projection? index c = some answer) :
    answer.isOk = true ↔ (g.readsInteger = true → ¬ c.IsOverlong) := by
  -- There are two kinds of getters: those behind which a reading always
  -- delivers, and the integers.
  have always : ∀ {α : Type} (x : Except CellFault α) (f : α → Value), g.readsInteger = false →
      x.isOk = true → answer = x.map f →
      (answer.isOk = true ↔ (g.readsInteger = true → ¬ c.IsOverlong)) := by
    intro α x f hreads hok heq
    rw [heq, isOk_map, hreads]
    exact ⟨fun _ h => Bool.noConfusion h, fun _ => hok⟩
  have integer : ∀ f : Int → Int, g.readsInteger = true →
      answer = (c.int64.map f).map .integer →
      (answer.isOk = true ↔ (g.readsInteger = true → ¬ c.IsOverlong)) := by
    intro f hreads heq
    rw [heq, isOk_map, isOk_map, hreads, c.int64_isOk_iff hc]
    exact ⟨fun h _ => h, fun h => h rfl⟩
  -- Four getters put something in place of NULL, which cannot fail either.
  have hcontent : c.content.isOk = true := by
    rw [Cell.content, isOk_map]
    exact c.bytes?_isOk hc
  have hcount : c.byteCount.isOk = true := by
    rw [Cell.byteCount, isOk_map]
    exact c.bytes?_isOk hc
  have htext : (c.textOr []).isOk = true := by
    rw [Cell.textOr, isOk_map]
    exact c.text?_isOk hc
  have hfull : c.fullText.isOk = true := by
    rw [Cell.fullText, isOk_map]
    exact c.text?_isOk hc
  cases g with
  | int32 => exact integer wrap32 rfl (Option.some.inj hg).symm
  | uint32 => exact integer low32 rfl (Option.some.inj hg).symm
  | int64 =>
      rw [← Option.some.inj hg, isOk_map, c.int64_isOk_iff hc]
      exact ⟨fun h _ => h, fun h => h rfl⟩
  | long =>
      rw [← Option.some.inj hg, isOk_map, c.int64_isOk_iff hc]
      exact ⟨fun h _ => h, fun h => h rfl⟩
  | double => exact always _ _ rfl (c.double_isOk hc) (Option.some.inj hg).symm
  | text => exact always _ _ rfl htext (Option.some.inj hg).symm
  | window => exact always _ _ rfl (c.bytes?_isOk hc) (Option.some.inj hg).symm
  | content => exact always _ _ rfl hcontent (Option.some.inj hg).symm
  | byteCount => exact always _ _ rfl hcount (Option.some.inj hg).symm
  | storageClass => exact always _ _ rfl (c.storageClass_isOk hc) (Option.some.inj hg).symm
  | isClass s => exact always _ _ rfl (c.storageClass_isOk hc) (Option.some.inj hg).symm
  | name => exact nomatch hg
  | fullText => exact always _ _ rfl hfull (Option.some.inj hg).symm
  | described => exact always _ _ rfl (c.storageClass_isOk hc) (Option.some.inj hg).symm
  | index =>
      rw [← Option.some.inj hg]
      exact ⟨fun _ h => Bool.noConfusion h, fun _ => rfl⟩

namespace Column

/-- A getter of a column over a stored cell, the name apart, delivers as the
    getter of the cell does. A name may be missing for reasons that have nothing
    to do with the cell. -/
theorem get_isOk_iff (column : Column) (c : Cell) (hc : c.IsStored) (hcell : column.cell = .ok c)
    (hrow : column.hasRow = true) (g : Getter) (hg : g ≠ .name) :
    (column.get g).isOk = true ↔ (g.readsInteger = true → ¬ c.IsOverlong) := by
  have hsome : ∃ answer, g.projection? column.index c = some answer := by
    cases g with
    | name => exact absurd rfl hg
    | _ => exact ⟨_, rfl⟩
  rcases hsome with ⟨answer, hanswer⟩
  rw [get_eq_projection column c hcell hrow g answer hanswer, isOk_ofCellReading]
  exact g.projection?_isOk_iff column.index c hc answer hanswer

/-- A conversion of a column over a stored cell to a kind of value delivers as
    its getter does. -/
theorem convert_isOk_iff (column : Column) (c : Cell) (hc : c.IsStored)
    (hcell : column.cell = .ok c) (hrow : column.hasRow = true) (t : Target)
    (ht : t.isKind = true) :
    (column.convert t).isOk = true ↔ (t.readsInteger = true → ¬ c.IsOverlong) := by
  have getter : ∀ g : Getter, t.getter? = some g → g ≠ .name →
      g.readsInteger = t.readsInteger →
      ((column.convert t).isOk = true ↔ (t.readsInteger = true → ¬ c.IsOverlong)) := by
    intro g hg hname hreads
    rw [convert_eq_getter column t g hg, ← hreads]
    exact get_isOk_iff column c hc hcell hrow g hname
  cases t with
  | integer => exact getter .int64 rfl Getter.noConfusion rfl
  | real => exact getter .double rfl Getter.noConfusion rfl
  | text => exact getter .fullText rfl Getter.noConfusion rfl
  | bytes => exact getter .content rfl Getter.noConfusion rfl
  | window => exact getter .window rfl Getter.noConfusion rfl
  -- A truth value is no getter, but reads the integer itself.
  | truth =>
      rw [convert_truth column c hcell, isOk_ofCellReading, isOk_map, c.int64_isOk_iff hc]
      exact ⟨fun h _ => h, fun h => h rfl⟩
  | storageClass => exact getter .storageClass rfl Getter.noConfusion rfl
  | _ => exact Bool.noConfusion ht

theorem textOr_isOk (column : Column) (c : Cell) (hc : c.IsStored) (hcell : column.cell = .ok c)
    (default : Text) : (column.textOr default).isOk = true := by
  rw [textOr, read_of_cell column c hcell, isOk_ofCellReading, Cell.textOr, isOk_map]
  exact c.text?_isOk hc

end Column

/-- A cell that an engine delivers can be read in every way, unless its text is
    overlong; then the integer readings fail, and only these. The same holds of
    every getter of a column over the cell, and of the conversions to the kinds
    of values.

    Both directions count. That readings deliver is what a reader of rows relies
    on; that the integer readings of an overlong text do not is where this
    reliance breaks, whatever is asked for first. -/
theorem conversions_deliver (c : Cell) (hc : c.IsDelivered) :
    (∀ p, (c.project p).isOk = true ↔ (p.readsInteger = true → ¬ c.IsOverlong)) ∧
      (c.IsOverlong → c.int64 = .error .tooManyDigits) ∧
      ∀ column : Column, column.cell = .ok c → column.hasRow = true →
        (∀ g, g ≠ .name →
          ((column.get g).isOk = true ↔ (g.readsInteger = true → ¬ c.IsOverlong))) ∧
        (∀ default, (column.textOr default).isOk = true) ∧
        ∀ t, t.isKind = true →
          ((column.convert t).isOk = true ↔ (t.readsInteger = true → ¬ c.IsOverlong)) := by
  have hstored := c.isStored_of_isDelivered hc
  refine ⟨c.project_isOk_iff hstored, c.int64_of_isOverlong, fun column hcell hrow => ⟨?_, ?_, ?_⟩⟩
  · exact column.get_isOk_iff c hstored hcell hrow
  · exact column.textOr_isOk c hstored hcell
  · exact column.convert_isOk_iff c hstored hcell hrow

/-- A text of one digit more than are read at once. -/
def Cell.ones : Cell := .text (Text.decode (List.replicate 4301 49))

theorem decode_ones (n : Nat) :
    Text.decode (List.replicate n 49) = List.replicate n (CodePoint.ofChar '1') := by
  -- Each byte is a character of its own.
  induction n with
  | zero => rfl
  | succ k ih =>
      rw [List.replicate_succ, List.replicate_succ, ← ih]
      rfl

theorem Cell.ones_isOverlong : Cell.ones.IsOverlong := by
  refine ⟨[], [], List.replicate 4301 (CodePoint.ofChar '1'), [], ?_,
    fun c hc => absurd hc List.not_mem_nil, Or.inl rfl, fun c hc => ?_, ?_⟩
  · rw [decode_ones, List.nil_append, List.nil_append, List.append_nil]
  · rw [List.eq_of_mem_replicate hc]
    decide
  · rw [List.length_replicate]
    decide

/-- Not every cell that an engine delivers can be read as an integer. -/
theorem ones_tooManyDigits : Cell.ones.IsDelivered ∧ Cell.ones.int64 = .error .tooManyDigits :=
  ⟨.text _, Cell.ones.int64_of_isOverlong Cell.ones_isOverlong⟩

/-- The same cell can be read as a real. -/
theorem conversions_deliver_ones :
    (Cell.ones.project .double).isOk = true ∧ ¬ (Cell.ones.project .int64).isOk = true := by
  rcases conversions_deliver Cell.ones (.text _) with ⟨hproject, -, -⟩
  refine ⟨(hproject .double).mpr (fun h => Bool.noConfusion h), fun hok => ?_⟩
  exact (hproject .int64).mp hok rfl Cell.ones_isOverlong

end RowScope
