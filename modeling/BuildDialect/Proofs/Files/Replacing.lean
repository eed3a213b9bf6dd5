import BuildDialect.Proofs.Files.Growing

/-!
A file that is written after the directories on its way were made. The file is what was written,
everything else is as making the directories has left it, and writing it once more changes nothing.
-/
namespace BuildDialect.FileTree

variable {tree made after : FileTree} {p q : Path} {place here : Location} {item : FileItem}
  {content : List UInt8} {paths : List Path}

/-- A tree after a file was written at a place. All other items are there as before, and each other
item that is new is a directory that one of the paths leads to. -/
structure Replaced (paths : List Path) (place : Location) (content : List UInt8)
    (tree after : FileTree) : Prop where
  home : after.home = tree.home
  former : ∀ item, tree.item? place = some item → ∃ content, item = .file content
  written : after.item? place = some (.file content)
  kept : ∀ other, other ≠ place → ∀ item, tree.item? other = some item →
    after.item? other = some item
  added : ∀ other, other ≠ place → tree.item? other = none → after.item? other = none ∨
    after.item? other = some .directory ∧ ∃ q ∈ paths, after.Denotes q other

theorem put_put (tree : FileTree) (place : Location) (item : FileItem) :
    (tree.put place item).put place item = tree.put place item := by
  simp [put, List.filter_filter]

theorem Denotes.put (h : tree.Denotes q here) (hplace : tree.item? place ≠ some .directory) :
    (tree.put place item).Denotes q here := by
  obtain ⟨origin, hstart, hwalk⟩ := h
  exact ⟨origin, hstart, walk_put hplace hwalk⟩

theorem slot_put (hslot : tree.slot p = .ok (some place))
    (hplace : tree.item? place ≠ some .directory) :
    (tree.put place item).slot p = .ok (some place) := by
  obtain ⟨origin, front, final, parent, hstart, hsteps, hwalk, hparent, hstay, hup, hshort, rfl⟩ :=
    slot_eq_some hslot
  have hother : parent ≠ parent ++ [final.bytes] := by simp
  have hbegin : (tree.put (parent ++ [final.bytes]) item).start p = .ok origin := hstart
  have hturn : ¬ (final = "." ∨ final = "..") := not_or.mpr ⟨hstay, hup⟩
  unfold slot
  rw [hbegin]
  dsimp only [bind, Except.bind]
  rw [hsteps, List.getLast?_concat, List.dropLast_concat]
  dsimp only
  rw [walk_put hplace hwalk]
  dsimp only
  rw [item?_put_of_ne hother, hparent]
  dsimp only
  rw [if_neg hturn, if_neg hshort]

/-- Writing the same once more changes nothing. -/
theorem write_again (h : tree.write p content = .ok after) :
    after.write p content = .ok after := by
  obtain ⟨place, hslot, hformer, rfl⟩ := write_eq_ok h
  have hplace := ne_directory hformer
  have hagain := denotes_put (.file content) hslot hplace
  unfold write
  rw [slot_put hslot hplace]
  dsimp only [bind, Except.bind]
  rw [hagain.2]
  dsimp only
  rw [put_put]

/-- A directory is still found after a file was written. -/
theorem find_directory_write (h : tree.write p content = .ok after)
    (hfound : tree.find q = .ok .directory) : after.find q = .ok .directory := by
  obtain ⟨place, -, hformer, rfl⟩ := write_eq_ok h
  have hplace := ne_directory hformer
  obtain ⟨other, hdenotes, hother⟩ := find_eq_ok_iff.mp hfound
  have hne : other ≠ place := by
    rintro rfl
    exact hplace hother
  exact find_eq_ok_iff.mpr ⟨other, hdenotes.put hplace, (item?_put_of_ne hne).trans hother⟩

theorem Grown.replaced (grown : Grown paths tree made) (h : made.write p content = .ok after) :
    ∃ place, after.Denotes p place ∧ Replaced paths place content tree after := by
  obtain ⟨place, hslot, hformer, rfl⟩ := write_eq_ok h
  have hplace := ne_directory hformer
  obtain ⟨hdenotes, hwritten⟩ := denotes_put (.file content) hslot hplace
  refine ⟨place, hdenotes, grown.home, ?_, hwritten, ?_, ?_⟩
  · intro item hitem
    exact hformer item (grown.kept place item hitem)
  · intro other hne item hitem
    rw [item?_put_of_ne hne]
    exact grown.kept other item hitem
  · intro other hne hnone
    rw [item?_put_of_ne hne]
    rcases grown.added other hnone with hnone | ⟨hdirectory, q, hq, hdenotes⟩
    · exact Or.inl hnone
    · exact Or.inr ⟨hdirectory, q, hq, hdenotes.put hplace⟩

end BuildDialect.FileTree
