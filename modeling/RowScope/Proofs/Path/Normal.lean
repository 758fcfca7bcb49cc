import RowScope.Proofs.Path.Place
import RowScope.Proofs.Text.Boundary

/-!
# Normalised Paths

Where a path leads, said as a walk. One starts at the root or where one is, and
takes the pieces between the slashes as steps: an empty piece and a dot lead
nowhere, two dots lead up unless one is at the root, and anything else leads
down. The normalised path is that of the place where the walk ends.

The place of a parsed path is the end of this walk, although it is found
otherwise: pieces that lead nowhere are dropped before it is known where a path
starts, and two dots are followed on the list of names passed so far, which is
kept in reverse.

A normalised path leads to its own place from everywhere. So two of them are
equal only if the places are.

## Main definitions

* `stepped`, `walked`: One step, and the walk of a text.
* `normalised`: The normalised path.
* `IsProper`: A name that leads down.

## Theorems

* `place_eq_walked`: The place of a path is the end of the walk.
* `normalised_eq_placeText`: Its text is the normalised path.
* `walked_normalised`, `normalised_normalised`: A normalised path leads to its
  own place, and is its own normalised path.
* `normalised_isDecoded`: The normalised path of texts that bytes are decoded to
  is such a text.
-/

namespace RowScope

namespace Path

/-- One step of a walk. -/
def stepped (dir : List Text) (piece : Text) : List Text :=
  if piece = [] ∨ piece = dot then dir
  else if piece = dots then dir.dropLast
  else dir ++ [piece]

/-- Where a text leads: from the root if it starts with a slash, else from a
    directory. -/
def walked (dir : List Text) (t : Text) : List Text :=
  (t.splitOn slash).foldl stepped (if t.head? = some slash then [] else dir)

/-- The absolute path of where a path leads, without detours. -/
def normalised (cwd path : Text) : Text :=
  slash :: [slash].intercalate (walked (walked [] cwd) path)

/-- A name that leads down, and nowhere else. -/
def IsProper (name : Text) : Prop :=
  name ≠ [] ∧ name ≠ dot ∧ name ≠ dots ∧ slash ∉ name

/-! ### Steps -/

theorem stepped_idle (dir : List Text) (piece : Text) (h : isName piece = false) :
    stepped dir piece = dir := by
  rw [isName, Bool.and_eq_false_iff, Bool.not_eq_false', List.isEmpty_iff, bne_eq_false_iff_eq] at h
  rw [stepped, if_pos h]

theorem stepped_up (dir : List Text) : stepped dir dots = dir.dropLast := by
  rw [stepped, if_neg (by decide), if_pos rfl]

/-- Every other name leads down, whatever is in it. -/
theorem stepped_down (dir : List Text) (name : Text) (hname : isName name = true)
    (hdots : name ≠ dots) : stepped dir name = dir ++ [name] := by
  rw [isName, Bool.and_eq_true, Bool.not_eq_true', List.isEmpty_eq_false_iff, bne_iff_ne] at hname
  rw [stepped, if_neg (not_or.mpr hname), if_neg hdots]

theorem isName_of_isProper {name : Text} (h : IsProper name) : isName name = true := by
  rw [isName, List.isEmpty_eq_false_iff.mpr h.1, bne_iff_ne.mpr h.2.1]
  rfl

/-- Pieces that lead nowhere can be dropped from a walk, wherever they are in
    it. -/
theorem foldl_stepped_filter (dir : List Text) (ps : List Text) :
    (ps.filter isName).foldl stepped dir = ps.foldl stepped dir := by
  induction ps generalizing dir with
  | nil => rfl
  | cons piece rest ih =>
      rcases hname : isName piece with _ | _
      · rw [List.filter_cons_of_neg (by rw [hname]; exact Bool.false_ne_true), ih, List.foldl_cons,
          stepped_idle dir piece hname]
      · rw [List.filter_cons_of_pos hname, List.foldl_cons, ih, List.foldl_cons]

/-- Following two dots on the names passed so far is to walk. The names passed
    so far are kept in reverse, so the last name of the walk is the first of
    these, and to go up is to take it off. -/
theorem followed_eq_foldl (above names : List Text) (h : ∀ name ∈ names, isName name = true) :
    followed above names = names.foldl stepped above.reverse := by
  fun_induction followed above names with
  | case1 above => rfl
  | case2 above rest ih =>
      rw [ih fun name hname => h name (List.mem_cons_of_mem _ hname), List.foldl_cons, stepped_up,
        List.dropLast_reverse]
  | case3 above name rest hdots ih =>
      rw [ih fun other hother => h other (List.mem_cons_of_mem _ hother), List.foldl_cons,
        stepped_down _ name (h name List.mem_cons_self) hdots, List.reverse_cons]

/-! ### Walks -/

/-- A path starts where one is if and only if there is no slash in front of it.
    A path with two slashes in front has a start of its own, which is an
    absolute one like that of a path with one. -/
theorem startOf_eq_here_iff (t : Text) : startOf t = .here ↔ t.head? ≠ some slash := by
  rcases t with _ | ⟨c, rest⟩
  · exact ⟨fun _ => nofun, fun _ => rfl⟩
  · rw [List.head?_cons, Ne, Option.some.injEq]
    by_cases hc : c = slash
    · -- With a slash in front the number of slashes is not zero, so the start
      -- is one of the others.
      refine ⟨fun h => ?_, fun h => absurd hc h⟩
      have hslashes : (c :: rest).takeWhile (· == slash) = c :: rest.takeWhile (· == slash) :=
        List.takeWhile_cons_of_pos (beq_iff_eq.mpr hc)
      rw [startOf, hslashes, List.length_cons] at h
      split at h
      · rename_i hlength
        exact absurd hlength (Nat.succ_ne_zero _)
      · cases h
      · cases h
    · refine ⟨fun _ => hc, fun _ => ?_⟩
      have hslashes : (c :: rest).takeWhile (· == slash) = [] :=
        List.takeWhile_cons_of_neg fun h => hc (beq_iff_eq.mp h)
      rw [startOf, hslashes]
      rfl

theorem names_foldl (dir : List Text) (t : Text) :
    (parse t).names.foldl stepped dir = (t.splitOn slash).foldl stepped dir := by
  rw [← pieces_eq_splitOn]
  exact foldl_stepped_filter dir (pieces t)

theorem isName_of_mem_names (t : Text) : ∀ name ∈ (parse t).names, isName name = true :=
  fun _ hname => (List.mem_filter.mp hname).2

/-- The walk from the root does not depend on where it starts. -/
theorem walked_nil (t : Text) : walked [] t = (t.splitOn slash).foldl stepped [] := by
  rw [walked, ite_self]

/-- The place of a path is where the walk ends. An absolute path forgets where
    one is on both sides. A relative one is walked from there, and its place is
    found by following the names of both paths from the root in one go, which
    comes to the same. -/
theorem place_eq_walked (cwd path : Text) :
    place (parse cwd) (parse path) = walked (walked [] cwd) path := by
  have hstart : (parse path).start = startOf path := rfl
  rw [walked]
  by_cases hhead : path.head? = some slash
  · have hplace : place (parse cwd) (parse path) = followed [] (parse path).names := by
      have habsolute : (parse path).start ≠ .here := fun h =>
        (startOf_eq_here_iff path).mp (hstart ▸ h) hhead
      unfold place
      split
      · rename_i hhere
        exact absurd hhere habsolute
      · rfl
    rw [if_pos hhead, hplace, followed_eq_foldl [] _ (isName_of_mem_names path), names_foldl]
    rfl
  · have hplace : place (parse cwd) (parse path) =
        followed [] ((parse cwd).names ++ (parse path).names) := by
      rw [place, hstart, (startOf_eq_here_iff path).mpr hhead]
    -- All of them are names, so following them is stepping over them.
    have hnames : ∀ name ∈ (parse cwd).names ++ (parse path).names, isName name = true := by
      intro name hname
      exact (List.mem_append.mp hname).elim (isName_of_mem_names cwd name)
        (isName_of_mem_names path name)
    rw [if_neg hhead, hplace, followed_eq_foldl [] _ hnames, List.foldl_append, names_foldl,
      names_foldl, walked_nil]
    rfl

theorem normalised_eq_placeText (cwd path : Text) :
    normalised cwd path = placeText (place (parse cwd) (parse path)) := by
  rw [normalised, placeText, place_eq_walked, Text.joined_eq_intercalate]

/-! ### Normal forms -/

/-- A walk passes names that were there before, and pieces that lead down. Going
    up only takes names away. -/
theorem mem_foldl_stepped (dir ps : List Text) (name : Text)
    (h : name ∈ ps.foldl stepped dir) :
    name ∈ dir ∨ name ∈ ps ∧ name ≠ [] ∧ name ≠ dot ∧ name ≠ dots := by
  induction ps generalizing dir with
  | nil => exact Or.inl h
  | cons piece rest ih =>
      rcases ih _ h with hdir | ⟨hrest, hname⟩
      · -- The first piece leads nowhere, up, or down; only then is there a new
        -- name.
        unfold stepped at hdir
        split at hdir
        · exact Or.inl hdir
        · rename_i hsome
          split at hdir
          · exact Or.inl (List.dropLast_subset dir hdir)
          · rename_i hdots
            rcases List.mem_append.mp hdir with hbefore | hlast
            · exact Or.inl hbefore
            · rw [List.mem_singleton.mp hlast]
              exact Or.inr ⟨List.mem_cons_self, (not_or.mp hsome).1, (not_or.mp hsome).2, hdots⟩
      · exact Or.inr ⟨List.mem_cons_of_mem piece hrest, hname⟩

/-- What a walk ends in are names of the directory and proper pieces of the
    text; of the directory only as far as the text does not start with a
    slash. -/
theorem mem_walked (dir : List Text) (t name : Text) (h : name ∈ walked dir t) :
    name ∈ dir ∨ name ∈ t.splitOn slash ∧ IsProper name := by
  rcases mem_foldl_stepped _ _ name h with hdir | ⟨hpiece, hsome, hdot, hdots⟩
  · split at hdir
    · exact absurd hdir List.not_mem_nil
    · exact Or.inl hdir
  · exact Or.inr ⟨hpiece, hsome, hdot, hdots, not_mem_of_mem_splitOn slash t name hpiece⟩

/-- The names of a place are proper, since a walk that starts at the root has no
    names but those that led down. -/
theorem walked_isProper (cwd path : Text) :
    ∀ name ∈ walked (walked [] cwd) path, IsProper name := by
  intro name hname
  rcases mem_walked _ path name hname with hcwd | ⟨-, hproper⟩
  · rcases mem_walked [] cwd name hcwd with hnone | ⟨-, hproper⟩
    · exact absurd hnone List.not_mem_nil
    · exact hproper
  · exact hproper

/-- Proper names are walked down one after the other, and none is taken away
    again. -/
theorem foldl_stepped_proper (dir names : List Text) (h : ∀ name ∈ names, IsProper name) :
    names.foldl stepped dir = dir ++ names := by
  induction names generalizing dir with
  | nil => exact (List.append_nil dir).symm
  | cons name rest ih =>
      have hproper := h name List.mem_cons_self
      rw [List.foldl_cons, ih _ fun other hother => h other (List.mem_cons_of_mem name hother),
        stepped_down dir name (isName_of_isProper hproper) hproper.2.2.1, List.append_assoc,
        List.singleton_append]

/-- An absolute path of proper names leads to them, wherever one is. No name has
    a slash in it, so to split the text is to get the names back, behind the
    empty piece that makes it absolute. -/
theorem walked_proper (dir names : List Text) (h : ∀ name ∈ names, IsProper name) :
    walked dir (slash :: [slash].intercalate names) = names := by
  have hsplit : (slash :: [slash].intercalate names).splitOn slash =
      [] :: ([slash].intercalate names).splitOn slash := by
    rw [List.splitOn_cons_eq_if_modifyHead, if_pos (beq_self_eq_true slash)]
  have hfirst : stepped [] [] = [] := stepped_idle [] [] rfl
  rw [walked, List.head?_cons, if_pos rfl, hsplit, List.foldl_cons, hfirst]
  rcases names with _ | ⟨first, others⟩
  · rw [List.intercalate_nil, List.splitOn_nil, List.foldl_cons, hfirst, List.foldl_nil]
  · rw [List.splitOn_intercalate slash (fun name hname => (h name hname).2.2.2)
      (List.cons_ne_nil first others), foldl_stepped_proper [] _ h, List.nil_append]

/-- A normalised path leads to its own place, wherever one is. -/
theorem walked_normalised (dir : List Text) (cwd path : Text) :
    walked dir (normalised cwd path) = walked (walked [] cwd) path :=
  walked_proper dir _ (walked_isProper cwd path)

/-- A normalised path is normal, whatever one takes for the directory one is in.
    So normalising is something to be done once, and a second time finds nothing
    to do. -/
theorem normalised_normalised (dir cwd path : Text) :
    normalised dir (normalised cwd path) = normalised cwd path := by
  rw [normalised, walked_normalised, ← normalised]

/-! ### Normalised paths as bytes -/

theorem slash_eq_ascii : slash = CodePoint.ofNat (0x2F : UInt8).toNat := by
  decide

/-- Decoded texts are decoded together, from one list of bytes for each of
    them. -/
theorem exists_decoded_parts (ts : List Text) (h : ∀ t ∈ ts, t.IsDecoded) :
    ∃ parts : List Bytes, parts.map Text.decode = ts := by
  induction ts with
  | nil => exact ⟨[], rfl⟩
  | cons t rest ih =>
      rcases h t List.mem_cons_self with ⟨bytes, hbytes⟩
      rcases ih fun u hu => h u (List.mem_cons_of_mem t hu) with ⟨parts, hparts⟩
      exact ⟨bytes :: parts, by rw [List.map_cons, hbytes, hparts]⟩

/-- The pieces of a decoded text are decoded. A slash is ASCII, and bytes may be
    cut at an ASCII byte before they are decoded as well as after. -/
theorem splitOn_isDecoded (t : Text) (h : t.IsDecoded) :
    ∀ piece ∈ t.splitOn slash, Text.IsDecoded piece := by
  rcases h with ⟨bytes, rfl⟩
  intro piece hpiece
  rw [slash_eq_ascii, Text.splitOn_decode 0x2F (by decide)] at hpiece
  rcases List.mem_map.mp hpiece with ⟨part, -, rfl⟩
  exact ⟨part, rfl⟩

/-- The normalised path of texts that bytes are decoded to is such a text. Its
    names are pieces of the two texts, and joining them with slashes is to
    decode their bytes with slashes between. -/
theorem normalised_isDecoded (cwd path : Text) (hcwd : cwd.IsDecoded) (hpath : path.IsDecoded) :
    (normalised cwd path).IsDecoded := by
  have hnames : ∀ name ∈ walked (walked [] cwd) path, Text.IsDecoded name := by
    intro name hname
    rcases mem_walked _ path name hname with hbefore | ⟨hpiece, -⟩
    · rcases mem_walked [] cwd name hbefore with hnone | ⟨hpiece, -⟩
      · exact absurd hnone List.not_mem_nil
      · exact splitOn_isDecoded cwd hcwd name hpiece
    · exact splitOn_isDecoded path hpath name hpiece
  rcases exists_decoded_parts _ hnames with ⟨parts, hparts⟩
  refine ⟨0x2F :: [0x2F].intercalate parts, ?_⟩
  rw [Text.decode_ascii_cons 0x2F (by decide), Text.decode_intercalate 0x2F (by decide), hparts,
    ← slash_eq_ascii]
  rfl

end Path

end RowScope
