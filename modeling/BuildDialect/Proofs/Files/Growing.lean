import BuildDialect.Proofs.Files.Writing
import Mathlib.Tactic.IntervalCases

/-!
Directories that are made on the way to a file. However far it gets, everything that was there
stays, and what is new is a directory that one of the paths leads to. Making them once more changes
nothing.
-/
namespace BuildDialect

namespace FileTree

variable {tree made after : FileTree} {p : Path} {place here : Location}
  {names : List RawText} {item : FileItem} {paths more : List Path} {cause : FileCause}

/-- All items of a tree are there afterwards too, and each item that is new is a directory that one
of the paths leads to. -/
structure Grown (paths : List Path) (tree after : FileTree) : Prop where
  home : after.home = tree.home
  kept : ∀ place item, tree.item? place = some item → after.item? place = some item
  added : ∀ place, tree.item? place = none → after.item? place = none ∨
    after.item? place = some .directory ∧ ∃ p ∈ paths, after.Denotes p place

namespace Grown

theorem refl (paths : List Path) (tree : FileTree) : Grown paths tree tree where
  home := rfl
  kept _ _ h := h
  added _ h := Or.inl h

theorem mono (h : Grown paths tree after) (hsub : paths ⊆ more) : Grown more tree after := by
  refine ⟨h.home, h.kept, fun place hnone => ?_⟩
  rcases h.added place hnone with hnone | ⟨hdirectory, p, hp, hdenotes⟩
  · exact Or.inl hnone
  · exact Or.inr ⟨hdirectory, p, hsub hp, hdenotes⟩

theorem start (h : Grown paths tree after) (p : Path) : after.start p = tree.start p := by
  unfold FileTree.start
  rw [h.home]

/-- A path goes on leading where it led. -/
theorem denotes (h : Grown paths tree after) (hp : tree.Denotes p place) :
    after.Denotes p place := by
  obtain ⟨origin, hstart, hwalk⟩ := hp
  refine ⟨origin, ?_, walk_of_kept (fun place => h.kept place .directory) hwalk⟩
  rw [h.start, hstart]

theorem trans (h : Grown paths tree made) (h' : Grown paths made after) :
    Grown paths tree after := by
  refine ⟨h'.home.trans h.home, fun place item hitem => ?_, fun place hnone => ?_⟩
  · exact h'.kept place item (h.kept place item hitem)
  · rcases h.added place hnone with hmade | ⟨hmade, p, hp, hdenotes⟩
    · exact h'.added place hmade
    · exact Or.inr ⟨h'.kept place _ hmade, p, hp, h'.denotes hdenotes⟩

/-- The items that are no directories are the ones that were there. -/
theorem item_iff (h : Grown paths tree after) (place : Location) (hitem : item ≠ .directory) :
    after.item? place = some item ↔ tree.item? place = some item := by
  constructor
  · intro hafter
    cases hbefore : tree.item? place with
    | some former =>
      have hkept := h.kept place former hbefore
      rwa [hkept] at hafter
    | none =>
      rcases h.added place hbefore with hnone | ⟨hdirectory, -⟩
      · rw [hnone] at hafter
        cases hafter
      · rw [hdirectory] at hafter
        cases hafter
        exact absurd rfl hitem
  · exact h.kept place item

end Grown

theorem makeDirectory_eq_ok (h : tree.makeDirectory p = .ok made) :
    ∃ place, tree.slot p = .ok (some place) ∧ tree.item? place = none ∧
      made = tree.put place .directory := by
  obtain ⟨slot, hslot, h⟩ := bind_eq_ok h
  cases slot with
  | none => cases h
  | some place =>
    dsimp only at h
    split at h
    · cases h
    · rename_i hplace
      exact ⟨place, hslot, hplace, (Except.ok.inj h).symm⟩

theorem grown_makeDirectory (h : tree.makeDirectory p = .ok made) (hp : p ∈ paths) :
    Grown paths tree made := by
  obtain ⟨place, hslot, hplace, rfl⟩ := makeDirectory_eq_ok h
  have hfree : tree.item? place ≠ some .directory := by simp [hplace]
  obtain ⟨hdenotes, hitem⟩ := denotes_put .directory hslot hfree
  refine ⟨rfl, fun other item hother => ?_, fun other hnone => ?_⟩
  · have hne : other ≠ place := by
      rintro rfl
      rw [hplace] at hother
      cases hother
    rw [item?_put_of_ne hne, hother]
  · by_cases hsame : other = place
    · subst hsame
      exact Or.inr ⟨hitem, p, hp, hdenotes⟩
    · exact Or.inl ((item?_put_of_ne hsame).trans hnone)

theorem find_makeDirectory (h : tree.makeDirectory p = .ok made) :
    made.find p = .ok .directory := by
  obtain ⟨place, hslot, hplace, rfl⟩ := makeDirectory_eq_ok h
  have hfree : tree.item? place ≠ some .directory := by simp [hplace]
  exact find_eq_ok_iff.mpr ⟨place, denotes_put _ hslot hfree⟩

theorem find_excuse (h : tree.excuse p cause = .ok ()) : tree.find p = .ok .directory := by
  unfold excuse holdsDirectory at h
  split_ifs at h
  split at h
  · rename_i hholds
    split at hholds
    · assumption
    · cases hholds
    · cases hholds
    · cases hholds
    · cases hholds
  · cases h
  · cases h

/-- A step of a way is made from a directory. -/
theorem walk_concat {final : RawText} (h : tree.walk here (names ++ [final]) = .ok place) :
    ∃ parent, tree.walk here names = .ok parent ∧ tree.walk parent [final] = .ok place := by
  induction names generalizing here with
  | nil => exact ⟨here, rfl, h⟩
  | cons name names ih =>
    rw [List.cons_append, walk] at h
    rw [walk]
    split at h
    · cases h
    · cases h
    · cases h
    · split_ifs at h ⊢
      · exact ih h
      · exact ih h
      · exact ih h

/-- A path that leads to a place has that place for its item, unless its last step is no name. -/
theorem slot_of_denotes (h : tree.Denotes p place) :
    tree.slot p = .ok none ∨ tree.slot p = .ok (some place) := by
  obtain ⟨origin, hstart, hwalk⟩ := h
  unfold slot
  rw [hstart]
  dsimp only [bind, Except.bind]
  cases hfinal : p.steps.getLast? with
  | none => exact Or.inl rfl
  | some final =>
    obtain ⟨front, hsteps⟩ := List.getLast?_eq_some_iff.mp hfinal
    rw [hsteps] at hwalk
    obtain ⟨parent, hfront, hstep⟩ := walk_concat hwalk
    dsimp only
    rw [hsteps, List.dropLast_concat, hfront]
    dsimp only
    rw [walk] at hstep
    split at hstep
    · cases hstep
    · cases hstep
    · cases hstep
    · by_cases hturn : final = "." ∨ final = ".."
      · rw [if_pos hturn]
        exact Or.inl rfl
      · obtain ⟨hstay, hup⟩ := not_or.mp hturn
        rw [if_neg hstay, if_neg hup] at hstep
        rw [if_neg hturn]
        split_ifs at hstep ⊢
        rw [walk] at hstep
        cases hstep
        exact Or.inr rfl

theorem makeDirectory_taken (h : tree.find p = .ok .directory) :
    tree.makeDirectory p = .error .taken := by
  obtain ⟨place, hdenotes, hitem⟩ := find_eq_ok_iff.mp h
  unfold makeDirectory
  rcases slot_of_denotes hdenotes with hslot | hslot
  · rw [hslot]
    rfl
  · rw [hslot]
    dsimp only [bind, Except.bind]
    rw [hitem]

/-- Nothing is made where there is the directory already. -/
theorem makeLineage_of_directory (h : tree.find p = .ok .directory) (parents : List Path) :
    tree.makeLineage (p :: parents) = (.ok (), tree) := by
  have hexcuse : tree.excuse p .taken = .ok () := by
    unfold excuse holdsDirectory
    rw [h]
    rfl
  unfold makeLineage
  rw [makeDirectory_taken h]
  dsimp only
  rw [hexcuse]

theorem grown_makeLineage (paths : List Path) (tree : FileTree) :
    Grown paths tree (tree.makeLineage paths).2 := by
  induction paths generalizing tree with
  | nil => exact .refl [] tree
  | cons p parents ih =>
    unfold makeLineage
    split
    · rename_i made hmade
      exact grown_makeDirectory hmade List.mem_cons_self
    · split_ifs
      · exact .refl _ tree
      · -- what was made of the parents stays, whether or not the directory itself follows
        have hparents : Grown (p :: parents) tree (tree.makeLineage parents).2 :=
          (ih tree).mono (List.subset_cons_self p parents)
        split
        · rename_i hmade
          rwa [hmade] at hparents
        · rename_i between hmade
          rw [hmade] at hparents
          split
          · rename_i made hmade
            exact hparents.trans (grown_makeDirectory hmade List.mem_cons_self)
          · exact hparents
          · exact hparents
    · exact .refl _ tree

theorem find_makeLineage {parents : List Path} (h : (tree.makeLineage (p :: parents)).1 = .ok ()) :
    (tree.makeLineage (p :: parents)).2.find p = .ok .directory := by
  unfold makeLineage at h ⊢
  split at h
  · rename_i made hmade
    exact find_makeDirectory hmade
  · split_ifs at h ⊢
    split at h
    · cases h
    · split at h
      · rename_i made hmade
        exact find_makeDirectory hmade
      · cases h
      · exact find_excuse h
  · exact find_excuse h

end FileTree

namespace PlainPath

variable {p : PlainPath}

theorem parent_eq_self (h : p.names = []) : p.parent = p := by
  unfold parent
  rw [h]
  cases p
  cases h
  rfl

theorem lineage_of_nil (h : p.names = []) : p.lineage = [p] := by
  cases p
  cases h
  rfl

theorem lineage_eq_cons (p : PlainPath) : p.lineage = p :: p.lineage.tail := by
  have hascents (names : List RawText) : ascents names = names :: (ascents names).tail := by
    cases names with
    | nil => rfl
    | cons name above => rfl
  rw [lineage, hascents, List.map_cons, List.reverse_reverse]
  rfl

theorem lineage_parent (h : p.names ≠ []) : p.parent.lineage = p.lineage.tail := by
  have hparent : p.parent.names.reverse = p.names.reverse.tail := List.tail_reverse.symm
  cases hnames : p.names.reverse with
  | nil => exact absurd (List.reverse_eq_nil_iff.mp hnames) h
  | cons last above =>
    rw [lineage, lineage, hparent, hnames]
    rfl

end PlainPath

def Path.ancestors (p : Path) : List Path :=
  (PlainPath.ofPath p).lineage.tail.map PlainPath.toPath

namespace FileTree

variable {tree : FileTree} {p : Path}

/-- A path without names has no item of its own to be made. -/
theorem slot_ofPath (h : (PlainPath.ofPath p).names = []) (place : Location) :
    tree.slot (PlainPath.ofPath p).toPath ≠ .ok (some place) := by
  intro hslot
  obtain ⟨-, front, final, -, -, hsteps, -, -, hstay, -, -, -⟩ := slot_eq_some hslot
  have hslashes : (PlainPath.ofPath p).slashes ≤ 2 := by
    unfold PlainPath.ofPath
    dsimp only
    split_ifs with hfew
    · exact hfew
    · omega
  have hturn : (PlainPath.ofPath p).toPath.steps = [RawText.ofString "."] := by
    generalize PlainPath.ofPath p = plain at h hslashes
    obtain ⟨slashes, names⟩ := plain
    cases h
    interval_cases slashes
    · decide
    · decide
    · decide
  rw [hturn] at hsteps
  have hconcat : [] ++ [RawText.ofString "."] = front ++ [final] := hsteps
  obtain ⟨-, hfinal⟩ := List.append_inj' hconcat rfl
  exact hstay (List.singleton_inj.mp hfinal).symm

/-- Whatever comes of making the directory of a path, only directories above the path are new. -/
theorem grown_makeDirectories (p : Path) (tree : FileTree) :
    Grown p.ancestors tree (tree.makeDirectories (PlainPath.ofPath p).parent).2 := by
  by_cases h : (PlainPath.ofPath p).names = []
  · have hstays : (tree.makeDirectories (PlainPath.ofPath p).parent).2 = tree := by
      rw [PlainPath.parent_eq_self h, makeDirectories, PlainPath.lineage_of_nil h,
        List.map_singleton]
      unfold makeLineage
      split
      · rename_i made hmade
        obtain ⟨place, hslot, -, -⟩ := makeDirectory_eq_ok hmade
        exact absurd hslot (slot_ofPath h place)
      · rfl
      · rfl
    rw [hstays]
    exact .refl p.ancestors tree
  · rw [makeDirectories, PlainPath.lineage_parent h]
    exact grown_makeLineage p.ancestors tree

theorem find_makeDirectories {plain : PlainPath} (h : (tree.makeDirectories plain).1 = .ok ()) :
    (tree.makeDirectories plain).2.find plain.toPath = .ok .directory := by
  rw [makeDirectories, PlainPath.lineage_eq_cons, List.map_cons] at h ⊢
  exact find_makeLineage h

theorem makeDirectories_of_directory {plain : PlainPath}
    (h : tree.find plain.toPath = .ok .directory) :
    tree.makeDirectories plain = (.ok (), tree) := by
  rw [makeDirectories, PlainPath.lineage_eq_cons, List.map_cons]
  exact makeLineage_of_directory h _

end FileTree
end BuildDialect
