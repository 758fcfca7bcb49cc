import RowScope.Proofs.Session.Deeds
import RowScope.Proofs.Session.Shares

/-!
# Finality

When a handle ends, and what can happen to it afterwards. Shares are taken and
given back by anyone who has the handle, directly or by views, and nobody keeps
them from giving back what they do not hold. So nothing can be said about who
holds a share; but both kinds of deeds can be counted. A handle that has one
share ends with the first deed at which more shares were given back than taken,
its cursor is closed by that deed, and by no other.

The end is final for the row and for the cursor. It is not for the count: a
share is counted whenever it is taken, also of a handle that has ended, and as
nothing is given back any more the count is then that of the shares taken since.

## Main definitions

* `Command.isSharing`: Commands that take and give back shares, and questions.
* `Deed.takes`, `Deed.returns`, `Session.taken`, `Session.returned`: What is
  counted.
* `Session.Alive`, `Session.Ended`: The two kinds of states.

## Theorems

* `perform_dealt`: What one command does to the account of a handle.
* `Alive.perform`, `Ended.perform`: What it does to a handle that lives, and to
  one that has ended.
* `Ended.run`: The end is final.
* `lives_or_ends`: A run either leaves a handle alive or has ended it once.
* `handle_ends_once`: The same for a handle with one share.
-/

namespace RowScope

namespace Command

/-- Taking and giving back shares, directly or by views, and questions. -/
def isSharing : Command → Prop
  | share _ => True
  | release _ => True
  | viewOf _ _ => True
  | releaseView _ => True
  | drop (.view _) => True
  | query _ => True
  | _ => False

end Command

namespace Deed

/-- A share of a handle is taken. -/
def takes (h : HandleId) (d : Deed) : Bool :=
  match d.command with
  | .share g => g == h
  | .viewOf g _ => g == h
  | _ => false

/-- A share of a handle is given back, directly or by a view that has not given
    it back before. -/
def returns (h : HandleId) (d : Deed) : Bool :=
  match d.command with
  | .release g => g == h
  | .releaseView v => d.before.views[v]?.any (View.holds h)
  | .drop (.view v) => d.before.views[v]?.any (View.holds h)
  | _ => false

end Deed

/-- What a command does to an account, by whether it takes or gives back a
    share. -/
inductive Account.Dealt (x : Account) : Bool → Bool → Account → Prop
  | taken (views : Nat) :
      Dealt x true false { x with shares := x.shares + 1, views := views }
  | givenBack (views : Nat) : Dealt x false true ({ x with views := views } : Account).less
  | kept : Dealt x false false x

namespace Session

/-- How often a share of a handle is taken in a run. -/
def taken (e : Engine) (h : HandleId) (cs : List Command) (s : Session) : Nat :=
  (s.deeds e cs).countP (Deed.takes h)

/-- How often a share of a handle is given back in a run. -/
def returned (e : Engine) (h : HandleId) (cs : List Command) (s : Session) : Nat :=
  (s.deeds e cs).countP (Deed.returns h)

/-- A handle is not finalized, and has some shares. -/
structure Alive (h : HandleId) (shares closings : Nat) (s : Session) : Prop where
  handle : ∃ x, s.handles[h]? = some x ∧ x.finalized = false ∧ x.shares = shares
  closed : s.calls.countP (Call.closes h) = closings

/-- A handle is finalized and has no row, whatever it counts. -/
structure Ended (h : HandleId) (shares closings : Nat) (s : Session) : Prop where
  handle : ∃ x, s.handles[h]? = some x ∧ x.finalized = true ∧ x.row = none ∧ x.shares = shares
  closed : s.calls.countP (Call.closes h) = closings

/-! ### Accounts -/

section

variable {s : Session} {h : HandleId} {shares closings : Nat}

theorem account_made : (s.account h).made = true ↔ ∃ x, s.handles[h]? = some x := by
  rw [account, Option.isSome_iff_exists]

theorem alive_iff : s.Alive h shares closings ↔ (s.account h).made = true ∧
    (s.account h).finalized = false ∧ (s.account h).shares = shares ∧
      (s.account h).closings = closings := by
  constructor
  · rintro ⟨⟨x, found, live, hshares⟩, hclosed⟩
    rw [account_of_some s h x found]
    exact ⟨rfl, live, hshares, hclosed⟩
  · rintro ⟨made, live, hshares, hclosed⟩
    rcases account_made.mp made with ⟨x, found⟩
    rw [account_of_some s h x found] at live hshares hclosed
    exact ⟨⟨x, found, live, hshares⟩, hclosed⟩

/-- That a handle has ended can be read off its account. -/
theorem ended_iff : s.Ended h shares closings ↔ (s.account h).made = true ∧
    (s.account h).finalized = true ∧ (s.account h).hasRow = false ∧
      (s.account h).shares = shares ∧ (s.account h).closings = closings := by
  constructor
  · rintro ⟨⟨x, found, dead, rowless, hshares⟩, hclosed⟩
    rw [account_of_some s h x found]
    exact ⟨rfl, dead, by rw [Handle.hasRow, rowless]; rfl, hshares, hclosed⟩
  · rintro ⟨made, dead, rowless, hshares, hclosed⟩
    rcases account_made.mp made with ⟨x, found⟩
    rw [account_of_some s h x found] at dead rowless hshares hclosed
    have hrow : x.row = none := by
      rw [← Option.isNone_iff_eq_none, ← Option.isSome_eq_false_iff]
      exact rowless
    exact ⟨⟨x, found, dead, hrow, hshares⟩, hclosed⟩

end

/-- A view that is released gives a share back if it holds one. -/
theorem releaseView_dealt (v : ViewId) (h : HandleId) (s : Session) :
    (s.account h).Dealt false (s.views[v]?.any (View.holds h)) ((s.releaseView v).account h) := by
  rcases releaseView_cases v s with ⟨heq, hidle⟩ | ⟨view, found, holding, heq⟩
  · have hnone : s.views[v]?.any (View.holds h) = false := by
      rcases hv : s.views[v]? with _ | view
      · rfl
      · rw [Option.any_some, View.holds, hidle view hv, Bool.false_and]
    rw [heq, hnone]
    exact .kept
  · rw [heq, release_account, found, Option.any_some, View.holds, holding, Bool.true_and]
    by_cases hown : view.handle = h
    · rw [if_pos hown, ← hown, (account_idleView s v view found holding).2, beq_self_eq_true]
      exact .givenBack _
    · rw [if_neg hown, account_idleView_other s v view found h hown, beq_eq_false_iff_ne.mpr hown]
      exact .kept

/-- Every command deals with the account of a handle as it takes and gives back
    its shares. Taking or giving back a share of another handle is nothing to
    this one. -/
theorem perform_dealt (e : Engine) (c : Command) (s : Session) (h : HandleId)
    (sharing : c.isSharing) (made : (s.account h).made = true) :
    (s.account h).Dealt (Deed.takes h ⟨s, c⟩) (Deed.returns h ⟨s, c⟩)
      ((s.perform e c).2.account h) := by
  rcases account_made.mp made with ⟨x, found⟩
  cases c with
  | share g =>
      by_cases hg : g = h
      · subst hg
        simp only [Deed.takes, Deed.returns, beq_self_eq_true, perform, withHandle, found,
          Option.isSome_some, if_true]
        rw [account_share s g x found]
        exact .taken (s.account g).views
      · -- A share of `g` is no business of `h`.
        have hsame : (s.perform e (.share g)).2.account h = s.account h := by
          simp only [perform, withHandle]
          split
          · exact account_onHandle_other s g h _ hg
          · rfl
        simp only [Deed.takes, Deed.returns, beq_eq_false_iff_ne.mpr hg, hsame]
        exact .kept
  | release g =>
      have hstate : (s.perform e (.release g)).2 = s.release g := by
        simp only [perform, withHandle]
        split
        · rfl
        · rename_i hmissing
          rw [Bool.not_eq_true, Option.isSome_eq_false_iff, Option.isNone_iff_eq_none] at hmissing
          rw [release_missing g s hmissing]
      rw [hstate, release_account]
      by_cases hg : g = h
      · simp only [Deed.takes, Deed.returns, beq_iff_eq.mpr hg, if_pos hg]
        exact .givenBack (s.account h).views
      · simp only [Deed.takes, Deed.returns, beq_eq_false_iff_ne.mpr hg, if_neg hg]
        exact .kept
  | viewOf g index =>
      by_cases hg : g = h
      · subst hg
        simp only [Deed.takes, Deed.returns, beq_self_eq_true, perform, found,
          Option.isSome_some, if_true, viewing_state]
        rw [account_newView s g index x found]
        exact .taken _
      · have hsame : (s.perform e (.viewOf g index)).2.account h = s.account h := by
          simp only [perform]
          split
          · rw [viewing_state]
            exact account_newView_other s g h index hg
          · rfl
        simp only [Deed.takes, Deed.returns, beq_eq_false_iff_ne.mpr hg, hsame]
        exact .kept
  -- A view gives back at most once, which its own lemma says for both ways of
  -- letting it go.
  | releaseView v => exact releaseView_dealt v h s
  | drop made =>
      cases made with
      | view v => exact releaseView_dealt v h s
      | _ => exact False.elim sharing
  | query q => exact .kept
  | _ => exact False.elim sharing

/-! ### One command -/

section

variable {s : Session} {h : HandleId} {closings : Nat} (e : Engine) (c : Command)
  (sharing : c.isSharing)

include sharing

/-- A command leaves a handle alive with as many shares as it should have, or
    gives back the last one, and that is the end. The shares to spare are
    counted without subtraction, so that they say what happened also where
    nothing is left. -/
theorem Alive.perform {spare : Nat} (hs : s.Alive h (spare + 1) closings) :
    (∃ spare', spare' + (Deed.returns h ⟨s, c⟩).toNat = spare + (Deed.takes h ⟨s, c⟩).toNat ∧
      (s.perform e c).2.Alive h (spare' + 1) closings) ∨
    spare = 0 ∧ Deed.takes h ⟨s, c⟩ = false ∧ Deed.returns h ⟨s, c⟩ = true ∧
      (s.perform e c).2.Ended h 0 (closings + 1) := by
  rcases alive_iff.mp hs with ⟨made, live, hshares, hclosings⟩
  have hdealt := perform_dealt e c s h sharing made
  simp only [alive_iff, ended_iff]
  generalize Deed.takes h ⟨s, c⟩ = takes at hdealt ⊢
  generalize Deed.returns h ⟨s, c⟩ = gives at hdealt ⊢
  generalize (s.perform e c).2.account h = y at hdealt ⊢
  cases hdealt with
  | taken views =>
      exact Or.inl ⟨spare + 1, rfl, made, live, congrArg (· + 1) hshares, hclosings⟩
  | givenBack views =>
      have hopen : ¬ ((s.account h).made = false ∨ (s.account h).finalized = true) := by
        rw [made, live]
        decide
      -- With nothing to spare this was the last share, and otherwise one less
      -- is left to spare.
      rcases spare with _ | spare
      · rw [Account.less, if_neg hopen, if_pos (Nat.le_of_eq hshares)]
        exact Or.inr ⟨rfl, rfl, rfl, made, rfl, rfl, rfl, congrArg (· + 1) hclosings⟩
      · have hmany : ¬ (s.account h).shares ≤ 1 := by omega
        rw [Account.less, if_neg hopen, if_neg hmany]
        exact Or.inl ⟨spare, rfl, made, live, congrArg (· - 1) hshares, hclosings⟩
  | kept => exact Or.inl ⟨spare, rfl, made, live, hshares, hclosings⟩

/-- A handle that has ended counts the shares that are taken, and that is all.
    Giving one back is ignored from then on, whoever does it. -/
theorem Ended.perform {shares : Nat} (hs : s.Ended h shares closings) :
    (s.perform e c).2.Ended h (shares + (Deed.takes h ⟨s, c⟩).toNat) closings := by
  rcases ended_iff.mp hs with ⟨made, dead, rowless, hshares, hclosings⟩
  have hdealt := perform_dealt e c s h sharing made
  rw [ended_iff]
  generalize Deed.takes h ⟨s, c⟩ = takes at hdealt ⊢
  generalize Deed.returns h ⟨s, c⟩ = gives at hdealt
  generalize (s.perform e c).2.account h = y at hdealt ⊢
  cases hdealt with
  | taken views => exact ⟨made, dead, rowless, congrArg (· + 1) hshares, hclosings⟩
  | givenBack views =>
      rw [Account.less, if_pos (Or.inr dead)]
      exact ⟨made, dead, rowless, hshares, hclosings⟩
  | kept => exact ⟨made, dead, rowless, hshares, hclosings⟩

end

/-! ### Runs -/

theorem run_append (e : Engine) (front cs : List Command) (s : Session) :
    (s.run e (front ++ cs)).2 = ((s.run e front).2.run e cs).2 := by
  induction front generalizing s with
  | nil => rfl
  | cons c rest ih => exact ih (s.perform e c).2

/-- What is counted in a run is counted in the first command and in the rest. -/
theorem countP_deeds_cons (e : Engine) (p : Deed → Bool) (c : Command) (rest : List Command)
    (s : Session) : (s.deeds e (c :: rest)).countP p =
      (p ⟨s, c⟩).toNat + ((s.perform e c).2.deeds e rest).countP p := by
  rw [deeds, List.countP_cons, Nat.add_comm]
  rcases p ⟨s, c⟩ with _ | _
  · rfl
  · rfl

theorem taken_cons (e : Engine) (h : HandleId) (c : Command) (rest : List Command) (s : Session) :
    s.taken e h (c :: rest) = (Deed.takes h ⟨s, c⟩).toNat + (s.perform e c).2.taken e h rest :=
  countP_deeds_cons e (Deed.takes h) c rest s

theorem returned_cons (e : Engine) (h : HandleId) (c : Command) (rest : List Command)
    (s : Session) : s.returned e h (c :: rest) =
      (Deed.returns h ⟨s, c⟩).toNat + (s.perform e c).2.returned e h rest :=
  countP_deeds_cons e (Deed.returns h) c rest s

/-- The end of a handle is final. -/
theorem Ended.run {s : Session} {h : HandleId} {shares closings : Nat} (e : Engine)
    (cs : List Command) (sharing : ∀ c ∈ cs, c.isSharing) (hs : s.Ended h shares closings) :
    (s.run e cs).2.Ended h (shares + s.taken e h cs) closings := by
  induction cs generalizing s shares with
  | nil => exact hs
  | cons c rest ih =>
      rw [List.forall_mem_cons] at sharing
      rw [taken_cons, ← Nat.add_assoc]
      exact ih sharing.2 (hs.perform e c sharing.1)

/-- So far a handle lives that had a share and some to spare. -/
structure LivesOn (e : Engine) (h : HandleId) (spare closings : Nat) (s : Session)
    (cs : List Command) : Prop where
  covered : s.returned e h cs ≤ s.taken e h cs + spare
  lives : (s.run e cs).2.Alive h (spare + 1 + s.taken e h cs - s.returned e h cs) closings

theorem LivesOn.nil {e : Engine} {h : HandleId} {spare closings : Nat} {s : Session}
    (hs : s.Alive h (spare + 1) closings) : s.LivesOn e h spare closings [] :=
  ⟨Nat.zero_le _, hs⟩

/-- A command that does not end a handle can be put in front. -/
theorem LivesOn.cons {e : Engine} {h : HandleId} {spare spare' closings : Nat} {s : Session}
    {c : Command} {cs : List Command}
    (hspare : spare' + (Deed.returns h ⟨s, c⟩).toNat = spare + (Deed.takes h ⟨s, c⟩).toNat)
    (hcs : (s.perform e c).2.LivesOn e h spare' closings cs) :
    s.LivesOn e h spare closings (c :: cs) := by
  have hcovered := hcs.covered
  have hlives := hcs.lives
  refine ⟨?_, ?_⟩
  · rw [taken_cons, returned_cons]
    omega
  · rw [taken_cons, returned_cons]
    have hshares : spare + 1 + ((Deed.takes h ⟨s, c⟩).toNat + (s.perform e c).2.taken e h cs) -
        ((Deed.returns h ⟨s, c⟩).toNat + (s.perform e c).2.returned e h cs) =
        spare' + 1 + (s.perform e c).2.taken e h cs - (s.perform e c).2.returned e h cs := by
      omega
    rw [hshares]
    exact hlives

/-- A run leaves a handle alive from start to end, or one of its commands is the
    end of it. -/
inductive LivesOrEnds (e : Engine) (h : HandleId) (spare closings : Nat) (s : Session)
    (cs : List Command) : Prop
  | lives (all : ∀ p, p <+: cs → s.LivesOn e h spare closings p)
  | ends (front rest : List Command) (c : Command) (split : cs = front ++ c :: rest)
      (before : ∀ p, p <+: front → s.LivesOn e h spare closings p)
      (overdrawn : s.returned e h (front ++ [c]) = s.taken e h (front ++ [c]) + spare + 1)
      (ended : (s.run e (front ++ [c])).2.Ended h 0 (closings + 1))

/-- A command that does not end a handle can be put in front of a run, whichever
    way the run goes. -/
theorem LivesOrEnds.cons {e : Engine} {h : HandleId} {spare spare' closings : Nat} {s : Session}
    {c : Command} {cs : List Command} (hs : s.Alive h (spare + 1) closings)
    (hspare : spare' + (Deed.returns h ⟨s, c⟩).toNat = spare + (Deed.takes h ⟨s, c⟩).toNat)
    (hcs : (s.perform e c).2.LivesOrEnds e h spare' closings cs) :
    s.LivesOrEnds e h spare closings (c :: cs) := by
  have starts : ∀ front : List Command,
      (∀ p, p <+: front → (s.perform e c).2.LivesOn e h spare' closings p) →
      ∀ p, p <+: c :: front → s.LivesOn e h spare closings p := by
    intro front hfront p hp
    rcases List.prefix_cons_iff.mp hp with rfl | ⟨q, rfl, hq⟩
    · exact .nil hs
    · exact .cons hspare (hfront q hq)
  cases hcs with
  | lives all => exact .lives (starts cs all)
  | ends front rest d split before overdrawn ended =>
      refine .ends (c :: front) rest d (by rw [split, List.cons_append]) (starts front before) ?_
        ended
      rw [List.cons_append, taken_cons, returned_cons]
      omega

/-- A run either leaves a handle alive or has ended it once. The induction is on
    the commands with the spare shares generalized, since each command may
    change them. -/
theorem lives_or_ends (e : Engine) (h : HandleId) (spare closings : Nat) (cs : List Command)
    (sharing : ∀ c ∈ cs, c.isSharing) (s : Session) (hs : s.Alive h (spare + 1) closings) :
    s.LivesOrEnds e h spare closings cs := by
  induction cs generalizing s spare with
  | nil =>
      refine .lives fun p hp => ?_
      rw [List.prefix_nil.mp hp]
      exact .nil hs
  | cons c rest ih =>
      rw [List.forall_mem_cons] at sharing
      rcases hs.perform e c sharing.1 with ⟨spare', hspare, hlives⟩ | ⟨rfl, htakes, hgives, hended⟩
      · exact .cons hs hspare (ih spare' sharing.2 _ hlives)
      · refine .ends [] rest c rfl (fun p hp => ?_) ?_ hended
        · rw [List.prefix_nil.mp hp]
          exact .nil hs
        · rw [List.nil_append, taken_cons, returned_cons, htakes, hgives]
          rfl

/-- A handle with one share lives as long as no more shares were given back than
    taken. The first command at which one more was is the end: there, and never
    again, the cursor is closed. From then on the handle is finalized and has no
    row, and counts the shares that are taken.

    The two cases exclude each other by their counts, and the prefixes of the
    run say at which command the handle is in which state. -/
theorem handle_ends_once (e : Engine) (s : Session) (h : HandleId) (handle : Handle)
    (found : s.handles[h]? = some handle) (live : handle.finalized = false)
    (single : handle.shares = 1) (cs : List Command) (sharing : ∀ c ∈ cs, c.isSharing) :
    (∀ p, p <+: cs → s.returned e h p ≤ s.taken e h p ∧
      (s.run e p).2.Alive h (1 + s.taken e h p - s.returned e h p)
        (s.calls.countP (Call.closes h))) ∨
    ∃ front c rest, cs = front ++ c :: rest ∧
      (∀ p, p <+: front → s.returned e h p ≤ s.taken e h p ∧
        (s.run e p).2.Alive h (1 + s.taken e h p - s.returned e h p)
          (s.calls.countP (Call.closes h))) ∧
      s.returned e h (front ++ [c]) = s.taken e h (front ++ [c]) + 1 ∧
      ∀ p, p <+: rest → (s.run e (front ++ c :: p)).2.Ended h
        ((s.run e (front ++ [c])).2.taken e h p) (s.calls.countP (Call.closes h) + 1) := by
  have hs : s.Alive h (0 + 1) (s.calls.countP (Call.closes h)) :=
    ⟨⟨handle, found, live, single⟩, rfl⟩
  have hlives : ∀ p, s.LivesOn e h 0 (s.calls.countP (Call.closes h)) p →
      s.returned e h p ≤ s.taken e h p ∧ (s.run e p).2.Alive h
        (1 + s.taken e h p - s.returned e h p) (s.calls.countP (Call.closes h)) :=
    fun p hp => ⟨hp.covered, hp.lives⟩
  cases lives_or_ends e h 0 _ cs sharing s hs with
  | lives all => exact Or.inl fun p hp => hlives p (all p hp)
  | ends front rest c split before overdrawn ended =>
      refine Or.inr ⟨front, c, rest, split, fun p hp => hlives p (before p hp), overdrawn, ?_⟩
      intro p hp
      have hsharing : ∀ d ∈ p, d.isSharing := by
        intro d hd
        refine sharing d ?_
        rw [split]
        exact List.mem_append_right front (List.mem_cons_of_mem c (hp.subset hd))
      have hafter := ended.run e p hsharing
      rw [Nat.zero_add] at hafter
      -- The prefixes of the rest are runs from the end on.
      have hrun : (s.run e (front ++ c :: p)).2 = ((s.run e (front ++ [c])).2.run e p).2 := by
        rw [← run_append, List.append_assoc, List.singleton_append]
      rw [hrun]
      exact hafter

/-- A database with a handle that was just made. -/
def handled : Session :=
  (unopened.run .oneRow [.openDatabase, .prepareHandle (.text [])]).2

/-- The share of the handle and that of a view are given back, then one that
    nobody holds, and then another one is taken. -/
def overreleasing : List Command :=
  [.viewOf 0 0, .release 0, .releaseView 0, .release 0, .share 0]

/-- The share that nobody holds is the one too many, and the one that is taken
    after it is counted. -/
theorem handle_ends_once_overreleasing :
    ∃ handle, handled.handles[0]? = some handle ∧ handle.finalized = false ∧ handle.shares = 1 ∧
      (∀ c ∈ overreleasing, c.isSharing) ∧
      ∃ front c rest, overreleasing = front ++ c :: rest ∧
        handled.returned .oneRow 0 (front ++ [c]) = handled.taken .oneRow 0 (front ++ [c]) + 1 ∧
        ∀ p, p <+: rest → (handled.run .oneRow (front ++ c :: p)).2.Ended 0
          ((handled.run .oneRow (front ++ [c])).2.taken .oneRow 0 p) 1 := by
  have sharing : ∀ c ∈ overreleasing, c.isSharing := by
    simp only [overreleasing, List.forall_mem_cons]
    exact ⟨trivial, trivial, trivial, trivial, trivial, fun c hc => absurd hc List.not_mem_nil⟩
  refine ⟨_, rfl, rfl, rfl, sharing, ?_⟩
  rcases handle_ends_once .oneRow handled 0 _ rfl rfl rfl overreleasing sharing with
    hall | ⟨front, c, rest, hsplit, -, hcount, hended⟩
  · exact absurd (hall overreleasing (List.prefix_refl _)).1 (by decide)
  · exact ⟨front, c, rest, hsplit, hcount, hended⟩

/-- A share that is taken after the end is counted, and stays. -/
theorem ended_handle_counts :
    ∃ handle, (handled.run .oneRow [.release 0, .share 0, .release 0]).2.handles[0]? = some handle ∧
      handle.finalized = true ∧ handle.shares = 1 :=
  ⟨_, rfl, rfl, rfl⟩

end Session

end RowScope
