import BuildDialect.Files.Tree
import Mathlib.Data.List.Basic

/-!
Paths that reach the system. For these the system says what is wrong, if anything is; at any other
path an access fails before the system is asked.
-/
namespace BuildDialect

namespace Path

/-- A path that reaches the system: all of it stands for bytes, and it holds no character zero. -/
def Passable (p : Path) : Prop :=
  (∀ point ∈ p.text, point.isStray = false) ∧ .char (Char.ofNat 0) ∉ p.text

instance : DecidablePred Passable := fun p =>
  inferInstanceAs (Decidable
    ((∀ point ∈ p.text, point.isStray = false) ∧ .char (Char.ofNat 0) ∉ p.text))

theorem barred?_eq_none_iff {p : Path} : p.barred? = none ↔ p.Passable := by
  unfold barred?
  split_ifs with hstray hnull
  · obtain ⟨point, hpoint, hbytes⟩ := List.any_eq_true.mp hstray
    refine ⟨nofun, fun h => ?_⟩
    rw [h.1 point hpoint] at hbytes
    cases hbytes
  · exact ⟨nofun, fun h => absurd (List.contains_iff_mem.mp hnull) h.2⟩
  · have hall : ∀ point ∈ p.text, point.isStray = false := by simpa using hstray
    exact ⟨fun _ => ⟨hall, fun h => hnull (List.contains_iff_mem.mpr h)⟩, fun _ => rfl⟩

theorem exists_barred {p : Path} (h : ¬ p.Passable) : ∃ cause, p.barred? = some cause :=
  Option.ne_none_iff_exists'.mp fun hnone => h (barred?_eq_none_iff.mp hnone)

theorem barred?_isSystem {p : Path} {cause : FileCause} (h : p.barred? = some cause) :
    cause.isSystem = false := by
  unfold barred? at h
  split_ifs at h
  · cases h
    rfl
  · cases h
    rfl

end Path

namespace FileTree

variable {tree : FileTree} {path : Path} {cause : FileCause}

theorem bind_eq_error {α β : Type} {x : Except FileCause α} {next : α → Except FileCause β}
    (h : x >>= next = .error cause) :
    x = .error cause ∨ ∃ a, x = .ok a ∧ next a = .error cause := by
  cases x with
  | error other =>
    cases h
    exact Or.inl rfl
  | ok a => exact Or.inr ⟨a, rfl, h⟩

theorem walk_isSystem {here : Location} {names : List RawText}
    (h : tree.walk here names = .error cause) : cause.isSystem := by
  induction names generalizing here with
  | nil => cases h
  | cons name rest ih =>
    rw [walk] at h
    split at h
    · cases h
      rfl
    · cases h
      rfl
    · cases h
      rfl
    · split_ifs at h
      · exact ih h
      · exact ih h
      · cases h
        rfl
      · exact ih h

/-- What the system finds wrong with a path that reaches it. -/
theorem read_isSystem (passable : path.Passable) (h : tree.read path = .error cause) :
    cause.isSystem := by
  rcases bind_eq_error h with h | ⟨item, -, h⟩
  · rcases bind_eq_error h with h | ⟨origin, -, h⟩
    · unfold start at h
      rw [Path.barred?_eq_none_iff.mpr passable] at h
      dsimp only at h
      split_ifs at h
      · cases h
        rfl
      · cases h
        rfl
    · rcases bind_eq_error h with h | ⟨place, -, h⟩
      · exact walk_isSystem h
      · split at h
        · cases h
          rfl
        · cases h
  · cases item with
    | file content => cases h
    | sealed =>
      cases h
      rfl
    | directory =>
      cases h
      rfl

theorem read_barred (h : path.barred? = some cause) : tree.read path = .error cause := by
  have hstart : tree.start path = .error cause := by
    unfold start
    rw [h]
  unfold read find
  rw [hstart]
  rfl

end FileTree
end BuildDialect
