import BuildDialect.Proofs.Files.Replacing
import BuildDialect.Proofs.Settings.Rereading

/-!
What saving settings leaves of the files. If it fails, each file is as it was; otherwise each file
but the one that was written. Directories above the path are all that can be new, and saving the
same settings once more changes nothing.
-/
namespace BuildDialect

open Process

theorem Action.outcome_makeDirectories (plain : PlainPath) (w : World) :
    (Action.makeDirectories plain).outcome w =
      ((w.files.makeDirectories plain).1.mapError Fault.file,
        { w with files := (w.files.makeDirectories plain).2 }) := by
  unfold Action.makeDirectories
  rw [outcome_bind, outcome_get]
  dsimp only
  rcases w.files.makeDirectories plain with ⟨fault | value, files⟩
  · rfl
  · rfl

namespace Settings

variable {path : Path} {w : World}

/-- Saving settings whose directory is there only writes the file. -/
theorem outcome_save_again {s : Settings} {files : FileTree}
    (hfound : w.files.find (PlainPath.ofPath path).parent.toPath = .ok .directory)
    (hwrite : w.files.write path.plain (Utf8.encode s.written.toList) = .ok files) :
    (s.save path).outcome w =
      (.ok (), World.extend { w with files } [.logged (savedRecord path.plain)]) := by
  rw [outcome_save, Action.outcome_makeDirectories, FileTree.makeDirectories_of_directory hfound]
  dsimp only [Except.mapError]
  rw [hwrite]

/-- Saving settings writes the file that the path leads to or no file, and makes no directory but
those above the path. -/
theorem save_leaves (s : Settings) (path : Path) (w : World) :
    let result := ((s.save path).outcome w).1
    let after := ((s.save path).outcome w).2
    (∀ fault, result = .error fault →
      FileTree.Grown path.ancestors w.files after.files ∧
        ∀ place item, item ≠ .directory →
          (after.files.item? place = some item ↔ w.files.item? place = some item)) ∧
      (result = .ok () →
        (∃ place, after.files.Denotes path.plain place ∧ FileTree.Replaced path.ancestors place
          (Utf8.encode s.written.toList) w.files after.files) ∧
          (s.save path).outcome after =
            (.ok (), after.extend [.logged (savedRecord path.plain)])) := by
  have grown := FileTree.grown_makeDirectories path w.files
  have found := @FileTree.find_makeDirectories w.files (PlainPath.ofPath path).parent
  rw [outcome_save, Action.outcome_makeDirectories]
  revert grown found
  rcases w.files.makeDirectories (PlainPath.ofPath path).parent with ⟨fault | value, made⟩
  · intro grown found
    refine ⟨fun fault _ => ⟨grown, fun _ _ => grown.item_iff _⟩, fun hdone => ?_⟩
    cases hdone
  · intro grown found
    dsimp only [Except.mapError]
    cases hwrite : made.write path.plain (Utf8.encode s.written.toList) with
    | error cause =>
      refine ⟨fun fault _ => ⟨grown, fun _ _ => grown.item_iff _⟩, fun hdone => ?_⟩
      cases hdone
    | ok files =>
      refine ⟨fun fault hfailed => ?_, fun _ => ⟨grown.replaced hwrite, ?_⟩⟩
      · cases hfailed
      · have hfound := FileTree.find_directory_write hwrite (found rfl)
        have hagain := FileTree.write_again hwrite
        exact outcome_save_again hfound hagain

theorem save_leaves_sample :
    let blocked : World :=
      { World.fresh with
        files := FileTree.fresh.put (FileTree.locate ["work", "home", "b"]) (.file []) }
    let made := FileTree.locate ["work", "home", "a"]
    ∃ (s : Settings) (path : Path),
      (((s.save path).outcome .fresh).1 = .ok () ∧
        (s.save path).outcome ((s.save path).outcome .fresh).2 = (.ok (),
          ((s.save path).outcome .fresh).2.extend [.logged (savedRecord path.plain)])) ∧
      ∃ fault, ((s.save path).outcome blocked).1 = .error fault ∧
        ((s.save path).outcome blocked).2.files.item? made = some .directory ∧
        FileTree.Grown path.ancestors blocked.files ((s.save path).outcome blocked).2.files := by
  intro blocked made
  have hdone : ((Settings.save ⟨.skylark, [.skylark]⟩
      ⟨"a/../b/parser.yaml"⟩).outcome .fresh).1.isOk = true := by decide +kernel
  have hnot : ((Settings.save ⟨.skylark, [.skylark]⟩
      ⟨"a/../b/parser.yaml"⟩).outcome blocked).1.isOk = false := by decide +kernel
  have hitem : ((Settings.save ⟨.skylark, [.skylark]⟩ ⟨"a/../b/parser.yaml"⟩).outcome
      blocked).2.files.item? made = some .directory := by decide +kernel
  refine ⟨⟨.skylark, [.skylark]⟩, ⟨"a/../b/parser.yaml"⟩, ?_⟩
  -- the path is forgotten, for nothing is to be worked out once more
  revert hdone hnot hitem
  generalize (⟨.skylark, [.skylark]⟩ : Settings) = s
  generalize (⟨"a/../b/parser.yaml"⟩ : Path) = path
  intro hdone hnot hitem
  have hsaved : ((s.save path).outcome .fresh).1 = .ok () := eq_ok_of_isOk hdone
  refine ⟨⟨hsaved, ((save_leaves s path .fresh).2 hsaved).2⟩, ?_⟩
  cases hfailed : ((s.save path).outcome blocked).1 with
  | error fault => exact ⟨fault, rfl, hitem, ((save_leaves s path blocked).1 fault hfailed).1⟩
  | ok value =>
    rw [hfailed] at hnot
    cases hnot

end Settings
end BuildDialect
