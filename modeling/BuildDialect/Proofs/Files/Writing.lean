import BuildDialect.Files.Tree
import Mathlib.Data.List.Basic

/-!
Files that are written. On the way to a file there are only directories, and writing it leaves those
as they were, so that the same path leads to it afterwards.
-/
namespace BuildDialect.FileTree

variable {tree after : FileTree} {p : Path} {place here last : Location} {names : List RawText}
  {item : FileItem} {content : List UInt8}

theorem item?_put (hplace : place ≠ []) : (tree.put place item).item? place = some item := by
  have hempty : place.isEmpty = false := by simpa using hplace
  simp [item?, put, hempty]

theorem item?_put_of_ne {other : Location} (h : other ≠ place) :
    (tree.put place item).item? other = tree.item? other := by
  have hbeq : (other == place) = false := by simpa using h
  have hlookup : (tree.items.filter fun entry => entry.1 != place).lookup other =
      tree.items.lookup other := by
    induction tree.items with
    | nil => rfl
    | cons entry rest ih =>
      obtain ⟨found, item⟩ := entry
      by_cases hfound : found = place
      · have hdropped : (found != place) = false := by simp [hfound]
        have hother : (other == found) = false := by rwa [hfound]
        rw [List.filter_cons_of_neg (by simp [hdropped]), ih, List.lookup_cons, hother]
      · have hkept : (found != place) = true := by simpa using hfound
        rw [List.filter_cons_of_pos (by simp [hkept]), List.lookup_cons, List.lookup_cons, ih]
  rw [item?, item?, put]
  simp only [List.lookup_cons, hbeq, hlookup]

theorem walk_append {more : List RawText} (h : tree.walk here names = .ok last) :
    tree.walk here (names ++ more) = tree.walk last more := by
  induction names generalizing here with
  | nil =>
    cases h
    rfl
  | cons name names ih =>
    rw [walk] at h
    rw [List.cons_append, walk]
    split at h
    · cases h
    · cases h
    · cases h
    · split_ifs at h ⊢
      · exact ih h
      · exact ih h
      · exact ih h

theorem walk_name {name : RawText} (hhere : tree.item? here = some .directory) (hstay : name ≠ ".")
    (hup : name ≠ "..") (hshort : ¬ nameLimit < name.bytes.length) :
    tree.walk here [name] = .ok (here ++ [name.bytes]) := by
  rw [walk, hhere]
  simp only [hstay, hup, hshort, if_false]
  rw [walk]

/-- A way leads through directories only. -/
theorem walk_of_kept
    (kept : ∀ place, tree.item? place = some .directory → after.item? place = some .directory)
    (h : tree.walk here names = .ok last) : after.walk here names = .ok last := by
  induction names generalizing here with
  | nil => exact h
  | cons name names ih =>
    rw [walk] at h
    split at h
    · cases h
    · cases h
    · cases h
    · rename_i hdirectory
      rw [walk, kept here hdirectory]
      dsimp only
      split_ifs at h ⊢
      · exact ih h
      · exact ih h
      · exact ih h

theorem walk_put (hplace : tree.item? place ≠ some .directory)
    (h : tree.walk here names = .ok last) : (tree.put place item).walk here names = .ok last := by
  refine walk_of_kept (fun other hdirectory => ?_) h
  have hne : other ≠ place := by
    rintro rfl
    exact hplace hdirectory
  rw [item?_put_of_ne hne, hdirectory]

theorem bind_eq_ok {α β : Type} {x : Except FileCause α} {next : α → Except FileCause β} {b : β}
    (h : x >>= next = .ok b) : ∃ a, x = .ok a ∧ next a = .ok b := by
  cases x with
  | error cause => cases h
  | ok a => exact ⟨a, rfl, h⟩

/-- The place for a new item is below a directory, and the path leads there. -/
theorem slot_eq_some (h : tree.slot p = .ok (some place)) :
    ∃ (origin : Location) (front : List RawText) (final : RawText) (parent : Location),
      tree.start p = .ok origin ∧ p.steps = front ++ [final] ∧
      tree.walk origin front = .ok parent ∧ tree.item? parent = some .directory ∧
      final ≠ "." ∧ final ≠ ".." ∧ ¬ nameLimit < final.bytes.length ∧
      place = parent ++ [final.bytes] := by
  obtain ⟨origin, hstart, h⟩ := bind_eq_ok h
  cases hfinal : p.steps.getLast? with
  | none =>
    rw [hfinal] at h
    cases h
  | some final =>
    obtain ⟨front, hsteps⟩ := List.getLast?_eq_some_iff.mp hfinal
    have hfront : p.steps.dropLast = front := by rw [hsteps, List.dropLast_concat]
    rw [hfinal] at h
    obtain ⟨parent, hwalk, h⟩ := bind_eq_ok h
    rw [hfront] at hwalk
    split at h
    · cases h
    · cases h
    · cases h
    · rename_i hparent
      split_ifs at h with hturn hlong
      · cases h
      · obtain ⟨hstay, hup⟩ := not_or.mp hturn
        cases h
        exact ⟨origin, front, final, parent, hstart, hsteps, hwalk, hparent, hstay, hup, hlong,
          rfl⟩

theorem write_eq_ok (h : tree.write p content = .ok after) :
    ∃ place, tree.slot p = .ok (some place) ∧
      (∀ item, tree.item? place = some item → ∃ former, item = .file former) ∧
      after = tree.put place (.file content) := by
  obtain ⟨slot, hslot, h⟩ := bind_eq_ok h
  cases slot with
  | none => cases h
  | some place =>
    dsimp only at h
    split at h
    · cases h
    · cases h
    · rename_i hdirectory hsealed
      refine ⟨place, hslot, fun item hitem => ?_, (Except.ok.inj h).symm⟩
      cases item with
      | file former => exact ⟨former, rfl⟩
      | sealed => exact absurd hitem hsealed
      | directory => exact absurd hitem hdirectory

theorem ne_directory (h : ∀ item, tree.item? place = some item → ∃ former, item = .file former) :
    tree.item? place ≠ some .directory := by
  intro hdirectory
  obtain ⟨former, hfile⟩ := h .directory hdirectory
  cases hfile

/-- A path leads to a place, whether or not there is an item. -/
def Denotes (tree : FileTree) (p : Path) (place : Location) : Prop :=
  ∃ origin, tree.start p = .ok origin ∧ tree.walk origin p.steps = .ok place

theorem find_eq_ok_iff :
    tree.find p = .ok item ↔ ∃ place, tree.Denotes p place ∧ tree.item? place = some item := by
  constructor
  · intro h
    obtain ⟨origin, hstart, h⟩ := bind_eq_ok h
    obtain ⟨place, hwalk, h⟩ := bind_eq_ok h
    refine ⟨place, ⟨origin, hstart, hwalk⟩, ?_⟩
    split at h
    · cases h
    · rename_i found hfound
      rw [hfound, Except.ok.inj h]
  · rintro ⟨place, ⟨origin, hstart, hwalk⟩, hitem⟩
    unfold find
    rw [hstart]
    dsimp only [bind, Except.bind]
    rw [hwalk]
    dsimp only
    rw [hitem]

/-- The path of a new item leads to it. -/
theorem denotes_put (item : FileItem) (hslot : tree.slot p = .ok (some place))
    (hplace : tree.item? place ≠ some .directory) :
    (tree.put place item).Denotes p place ∧ (tree.put place item).item? place = some item := by
  obtain ⟨origin, front, final, parent, hstart, hsteps, hwalk, hparent, hstay, hup, hshort, rfl⟩ :=
    slot_eq_some hslot
  have hother : parent ≠ parent ++ [final.bytes] := by simp
  have hdirectory : (tree.put (parent ++ [final.bytes]) item).item? parent = some .directory := by
    rw [item?_put_of_ne hother, hparent]
  refine ⟨⟨origin, hstart, ?_⟩, item?_put (List.concat_ne_nil _ _)⟩
  rw [hsteps, walk_append (walk_put hplace hwalk)]
  exact walk_name hdirectory hstay hup hshort

/-- A file that is written is found by the path it was written to. -/
theorem find_write (h : tree.write p content = .ok after) : after.find p = .ok (.file content) := by
  obtain ⟨place, hslot, hformer, rfl⟩ := write_eq_ok h
  exact find_eq_ok_iff.mpr ⟨place, denotes_put _ hslot (ne_directory hformer)⟩

theorem holds_write (h : tree.write p content = .ok after) : after.holds p = .ok true := by
  rw [holds, find_write h]

theorem read_write (h : tree.write p content = .ok after) : after.read p = .ok content := by
  unfold read
  rw [find_write h]
  rfl

end BuildDialect.FileTree
