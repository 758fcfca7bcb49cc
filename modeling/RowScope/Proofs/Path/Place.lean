import RowScope.Path.ReadOnly
import RowScope.Proofs.Text.Decoding

/-!
# Places of Paths

What a place is written with. To find out where a path leads is to split its
text at the slashes, to leave names out and to go back up; then what is left is
written with slashes between. All of this moves names about and makes none. So
the code points of a place are those of the path, those of where one is, and
slashes, and a place can be encoded if the other two can.

A text that stands for bytes, as the words of a command line do, can always be
encoded. Then a path without NUL has a connection target, however the database
is to be opened. On the other hand nothing of a path can be passed over: every
code point that no name can have is in a name that is looked up.

## Main definitions

* `Path.IsEncodable`: All names of a path can be encoded.

## Theorems

* `mem_pieces`, `mem_followed`, `Text.mem_joined`: Nothing comes out that was
  not put in.
* `pieces_eq_splitOn`, `Text.joined_eq_intercalate`: Taking apart and joining
  are those of lists.
* `mem_names`: Nothing but slashes and dots is left out.
* `nameFault?_eq_none_iff`, `names_faultless_iff`: Which names, and which paths,
  can be looked up.
* `placeText_isEncodable`: The text of a place can be encoded.
* `target_isOk`: A path has a connection target.
-/

namespace RowScope

/-- What texts with a separator between them are made of. -/
theorem Text.mem_joined (separator : Text) (ts : List Text) (c : CodePoint)
    (h : c ∈ joined separator ts) : c ∈ separator ∨ ∃ t ∈ ts, c ∈ t := by
  induction ts with
  | nil => exact absurd h List.not_mem_nil
  | cons t rest ih =>
      rcases rest with _ | ⟨u, rest⟩
      · exact Or.inr ⟨t, List.mem_cons_self, h⟩
      · have hparts : c ∈ t ++ separator ++ joined separator (u :: rest) := h
        rcases List.mem_append.mp hparts with hfirst | hlater
        · rcases List.mem_append.mp hfirst with ht | hseparator
          · exact Or.inr ⟨t, List.mem_cons_self, ht⟩
          · exact Or.inl hseparator
        · rcases ih hlater with hseparator | ⟨v, hv, hc⟩
          · exact Or.inl hseparator
          · exact Or.inr ⟨v, List.mem_cons_of_mem t hv, hc⟩

/-- Joining is that of lists, so that taking apart and joining are known to undo
    each other. -/
theorem Text.joined_eq_intercalate (separator : Text) (ts : List Text) :
    joined separator ts = separator.intercalate ts := by
  induction ts with
  | nil => rfl
  | cons t rest ih =>
      rcases rest with _ | ⟨u, rest⟩
      · rw [List.intercalate_singleton]
        rfl
      · rw [List.intercalate_cons_cons, ← ih]
        rfl

namespace Path

/-- All names of a path can be encoded. -/
def IsEncodable (p : Path) : Prop :=
  ∀ name ∈ p.names, name.IsEncodable

/-- The pieces that are read from a text are made of the text and of the piece
    that is being read. The recursion keeps this piece in reverse, and puts it
    back in order where a slash or the end closes it. -/
theorem mem_piecesFrom (piece t : Text) (found : Text) (hfound : found ∈ piecesFrom piece t)
    (c : CodePoint) (hc : c ∈ found) : c ∈ piece ∨ c ∈ t := by
  fun_induction piecesFrom piece t with
  | case1 piece =>
      rw [List.mem_singleton.mp hfound, List.mem_reverse] at hc
      exact Or.inl hc
  | case2 piece rest ih =>
      rcases List.mem_cons.mp hfound with rfl | hlater
      · exact Or.inl (List.mem_reverse.mp hc)
      · rcases ih hlater with hnone | hrest
        · exact absurd hnone List.not_mem_nil
        · exact Or.inr (List.mem_cons_of_mem _ hrest)
  | case3 piece d rest _ ih =>
      -- A code point of the piece that is being read was read before, or is the
      -- first one.
      rcases ih hfound with hpiece | hrest
      · rcases List.mem_cons.mp hpiece with rfl | hbefore
        · exact Or.inr List.mem_cons_self
        · exact Or.inl hbefore
      · exact Or.inr (List.mem_cons_of_mem d hrest)

/-- The pieces of a text are made of what the text is made of. -/
theorem mem_pieces (t piece : Text) (hpiece : piece ∈ pieces t) (c : CodePoint) (hc : c ∈ piece) :
    c ∈ t := by
  rcases mem_piecesFrom [] t piece hpiece c hc with hnone | ht
  · exact absurd hnone List.not_mem_nil
  · exact ht

/-- Following two dots makes no names. It takes names from the ones that are to
    come, puts them on those that were passed, and takes the last of these away
    again. -/
theorem mem_followed (above names : List Text) (name : Text) (h : name ∈ followed above names) :
    name ∈ above ∨ name ∈ names := by
  fun_induction followed above names with
  | case1 above => exact Or.inl (List.mem_reverse.mp h)
  | case2 above rest ih =>
      rcases ih h with habove | hrest
      · exact Or.inl (List.mem_of_mem_tail habove)
      · exact Or.inr (List.mem_cons_of_mem _ hrest)
  | case3 above first rest _ ih =>
      rcases ih h with habove | hrest
      · rcases List.mem_cons.mp habove with rfl | hbefore
        · exact Or.inr List.mem_cons_self
        · exact Or.inl hbefore
      · exact Or.inr (List.mem_cons_of_mem first hrest)

/-- A text that can be encoded writes a path that can be. -/
theorem parse_isEncodable (t : Text) (h : t.IsEncodable) : (parse t).IsEncodable :=
  fun name hname c hc => h c (mem_pieces t name (List.mem_filter.mp hname).1 c hc)

/-- The names of a place can be encoded if those of the path and of the
    directory can, whether the path starts there or at the root. -/
theorem place_isEncodable (here p : Path) (hhere : here.IsEncodable) (hp : p.IsEncodable) :
    ∀ name ∈ place here p, name.IsEncodable := by
  intro name hname
  unfold place at hname
  split at hname
  · rcases mem_followed _ _ name hname with hnone | hnames
    · exact absurd hnone List.not_mem_nil
    · exact (List.mem_append.mp hnames).elim (hhere name) (hp name)
  · rcases mem_followed _ _ name hname with hnone | hnames
    · exact absurd hnone List.not_mem_nil
    · exact hp name hnames

/-- The text of a place can be encoded if its names can be, a slash being
    ASCII. -/
theorem placeText_isEncodable (names : List Text) (h : ∀ name ∈ names, name.IsEncodable) :
    (placeText names).IsEncodable := by
  have hslash : ∀ c : CodePoint, c = slash → c.isSurrogate = true → c.isStray = true := by
    rintro c rfl hsurrogate
    exact absurd hsurrogate (by decide)
  intro c hc
  rcases List.mem_cons.mp hc with hfirst | hlater
  · exact hslash c hfirst
  · rcases Text.mem_joined _ names c hlater with hseparator | ⟨name, hname, hmem⟩
    · exact hslash c (List.mem_singleton.mp hseparator)
    · exact h name hname c hmem

/-! ### Names that are looked up -/

/-- The recursion splits at the slashes, and has the piece that is being read in
    front of the first one. -/
theorem piecesFrom_eq (piece t : Text) :
    piecesFrom piece t = (t.splitOn slash).modifyHead (piece.reverse ++ ·) := by
  fun_induction piecesFrom piece t with
  | case1 piece => rw [List.splitOn_nil, List.modifyHead_cons, List.append_nil]
  | case2 piece rest ih =>
      rw [List.splitOn_cons_eq_if_modifyHead, if_pos (beq_self_eq_true slash), ih,
        List.modifyHead_cons, List.append_nil]
      rcases List.exists_cons_of_ne_nil (List.splitOn_ne_nil slash rest) with ⟨first, others, h⟩
      rw [h]
      rfl
  | case3 piece d rest hd ih =>
      rw [List.splitOn_cons_eq_if_modifyHead, if_neg (fun h => hd (beq_iff_eq.mp h)), ih,
        List.modifyHead_modifyHead, List.reverse_cons]
      congr 1
      funext t
      rw [Function.comp, List.append_assoc, List.singleton_append]

theorem pieces_eq_splitOn (t : Text) : pieces t = t.splitOn slash := by
  rcases List.exists_cons_of_ne_nil (List.splitOn_ne_nil slash t) with ⟨first, others, h⟩
  rw [pieces, piecesFrom_eq, h]
  rfl

/-- Nothing of a text is left out of its names but slashes and dots. Pieces are
    left out that are empty or a single dot, so any other code point stands in a
    piece that is kept. -/
theorem mem_names (t : Text) (c : CodePoint) (hc : c ∈ t) (hslash : c ≠ slash) (hdot : c ∉ dot) :
    ∃ name ∈ (parse t).names, c ∈ name := by
  have hjoined : c ∈ Text.joined [slash] (pieces t) := by
    rw [Text.joined_eq_intercalate, pieces_eq_splitOn, List.intercalate_splitOn]
    exact hc
  rcases Text.mem_joined _ _ c hjoined with hseparator | ⟨piece, hpiece, hmem⟩
  · exact absurd (List.mem_singleton.mp hseparator) hslash
  · refine ⟨piece, List.mem_filter.mpr ⟨hpiece, ?_⟩, hmem⟩
    have hsome : piece ≠ [] := List.ne_nil_of_mem hmem
    have hnot : piece ≠ dot := fun h => hdot (h ▸ hmem)
    rw [isName, List.isEmpty_eq_false_iff.mpr hsome, bne_iff_ne.mpr hnot]
    rfl

/-- A name can be looked up if it can be encoded and has no NUL. It is refused
    for either before anything is looked for on the way. -/
theorem nameFault?_eq_none_iff (name : Text) :
    nameFault? name = none ↔ name.IsEncodable ∧ ∀ c ∈ name, c.val ≠ 0 := by
  rw [nameFault?, ← Text.encode_isSome_iff]
  rcases Text.encode name with _ | bytes
  · simp only [Option.isNone_none, if_true, reduceCtorEq, Option.isSome_none, Bool.false_eq_true,
      false_and]
  · simp only [Option.isNone_some, Bool.false_eq_true, if_false, Option.isSome_some, true_and,
      ite_eq_right_iff, reduceCtorEq, imp_false, List.any_eq_true, beq_iff_eq, not_exists, not_and]

theorem nameFault?_eq_some {name : Text} {fault : Fault} (h : nameFault? name = some fault) :
    fault = .pathNotEncodable ∨ fault = .nulInPath ∧ ∃ c ∈ name, c.val = 0 := by
  unfold nameFault? at h
  split at h
  · exact Or.inl (Option.some.inj h).symm
  · split at h
    · rename_i hnul
      rcases List.any_eq_true.mp hnul with ⟨c, hc, hzero⟩
      exact Or.inr ⟨(Option.some.inj h).symm, c, hc, beq_iff_eq.mp hzero⟩
    · cases h

/-- The names of a path can be looked up if the path can be encoded and has no
    NUL. The faults of a path are those of its names, since slashes and dots,
    which may be left out of them, are no faults. -/
theorem names_faultless_iff (path : Text) : (parse path).names.findSome? nameFault? = none ↔
    path.IsEncodable ∧ ∀ c ∈ path, c.val ≠ 0 := by
  rw [List.findSome?_eq_none_iff]
  constructor
  · intro h
    have faultless : ∀ c ∈ path, c ≠ slash → c ∉ dot →
        (c.isSurrogate = true → c.isStray = true) ∧ c.val ≠ 0 := by
      intro c hc hslash hdot
      rcases mem_names path c hc hslash hdot with ⟨name, hname, hmem⟩
      rcases (nameFault?_eq_none_iff name).mp (h name hname) with ⟨hencodable, hnul⟩
      exact ⟨hencodable c hmem, hnul c hmem⟩
    -- Slashes and dots are no faults, wherever they are.
    have harmless : ∀ c : CodePoint, c = slash ∨ c ∈ dot →
        (c.isSurrogate = true → c.isStray = true) ∧ c.val ≠ 0 := by
      rintro c (rfl | hdot)
      · decide
      · rw [List.mem_singleton.mp hdot]
        decide
    have all : ∀ c ∈ path, (c.isSurrogate = true → c.isStray = true) ∧ c.val ≠ 0 := by
      intro c hc
      by_cases hleft : c = slash ∨ c ∈ dot
      · exact harmless c hleft
      · exact faultless c hc (fun h => hleft (Or.inl h)) (fun h => hleft (Or.inr h))
    exact ⟨fun c hc => (all c hc).1, fun c hc => (all c hc).2⟩
  · rintro ⟨hencodable, hnul⟩ name hname
    exact (nameFault?_eq_none_iff name).mpr ⟨parse_isEncodable path hencodable name hname,
      fun c hc => hnul c (mem_pieces path name (List.mem_filter.mp hname).1 c hc)⟩

/-- What a file becomes, if the names on the way can be looked up: the reference
    to its place. -/
theorem target_of_encodable (here : Path) (path : Text) (file : path ≠ memoryPath)
    (nul : ∀ c ∈ path, c.val ≠ 0) (hpath : path.IsEncodable) (hhere : here.IsEncodable) :
    ∃ bytes, Text.encode (placeText (place here (parse path))) = some bytes ∧
      target true here path = .ok (readOnlyTarget bytes, true) := by
  have hplace := placeText_isEncodable _
    (place_isEncodable here (parse path) hhere (parse_isEncodable path hpath))
  rcases Option.isSome_iff_exists.mp ((Text.encode_isSome_iff _).mpr hplace) with ⟨bytes, hbytes⟩
  refine ⟨bytes, hbytes, ?_⟩
  rw [target, bne_iff_ne.mpr file, (names_faultless_iff path).mpr ⟨hpath, nul⟩, hbytes]
  rfl

/-- A path without NUL has a connection target. What is opened for reading only
    has to be encoded for that, together with the way to it; everything else is
    opened by the path as it was given. -/
theorem target_isOk (readOnly : Bool) (here : Path) (path : Text) (nul : ∀ c ∈ path, c.val ≠ 0)
    (encodable : readOnly = true → path ≠ memoryPath → path.IsEncodable ∧ here.IsEncodable) :
    ∃ target uri, Path.target readOnly here path = .ok (target, uri) := by
  by_cases hplaced : readOnly = true ∧ path ≠ memoryPath
  · rcases hplaced with ⟨rfl, file⟩
    rcases encodable rfl file with ⟨hpath, hhere⟩
    rcases target_of_encodable here path file nul hpath hhere with ⟨bytes, -, htarget⟩
    exact ⟨_, true, htarget⟩
  · have hgiven : (readOnly && path != memoryPath) = false := by
      rw [← Bool.not_eq_true, Bool.and_eq_true, bne_iff_ne]
      exact hplaced
    rw [target, hgiven]
    exact ⟨path, false, rfl⟩

end Path

end RowScope
