import BuildDialect.Proofs.Detection
import BuildDialect.Proofs.Settings.Acceptance
import BuildDialect.Settings.Storage

/-!
Loading settings. What comes of it depends on the files alone, and changes nothing but the log; and
settings that are loaded obey the rules for settings.
-/
namespace BuildDialect.Settings

open Process

def ofFile (files : FileTree) (path : Path) : Except Fault Settings :=
  match files.holds path with
  | .error cause => .error (.file ⟨cause, path⟩)
  | .ok false => .error (.settings (.fileMissing path))
  | .ok true =>
    match files.read path with
    | .error cause => .error (.file ⟨cause, path⟩)
    | .ok bytes => ofBytes path bytes

def loadedRecord (path : Path) (settings : Settings) : LogRecord :=
  let enabled := Dialect.listing settings.enabled
  ⟨.info, .settings,
    "Loaded config from " ++ path.text ++
      s!": default {settings.defaultDialect.name}, enabled {enabled}"⟩

theorem outcome_load (path : Path) (w : World) : (load path).outcome w =
    match ofFile w.files path.plain with
    | .error fault => (.error fault, w)
    | .ok settings => (.ok settings, w.extend [.logged (loadedRecord path.plain settings)]) := by
  unfold load ofFile
  rw [outcome_bind, Action.outcome_ask]
  cases hholds : w.files.holds path.plain with
  | error cause => rfl
  | ok holds =>
    cases holds with
    | false => rfl
    | true =>
      have hread : (Action.ask path.plain FileTree.read).outcome w = _ := Action.outcome_ask _ _ _
      cases hbytes : w.files.read path.plain with
      | error cause =>
        rw [hbytes] at hread
        simp only [Except.mapError, Bool.not_true, Bool.false_eq_true, if_false]
        rw [outcome_bind, hread]
        rfl
      | ok bytes =>
        rw [hbytes] at hread
        simp only [Except.mapError, Bool.not_true, Bool.false_eq_true, if_false]
        rw [outcome_bind, hread]
        simp only [Except.mapError]
        rw [outcome_bind, outcome_settle]
        cases ofBytes path.plain bytes <;> rfl

/-- Settings are loaded just if they are in the file. -/
theorem load_result (path : Path) (w : World) :
    ((load path).outcome w).1 = ofFile w.files path.plain := by
  rw [outcome_load]
  cases ofFile w.files path.plain with
  | error fault => rfl
  | ok settings => rfl

theorem ofBytes_eq_ok {path : Path} {bytes : List UInt8} {settings : Settings}
    (h : ofBytes path bytes = .ok settings) :
    ∃ pairs, Yaml.read depth bytes = .ok (.mapping pairs) ∧
      ofValue (.mapping pairs) = .ok settings := by
  unfold ofBytes at h
  split at h
  · cases h
  · cases h
  · rename_i pairs hread
    split at h
    · rename_i s hvalue
      cases h
      exact ⟨pairs, hread, hvalue⟩
    · cases h
  · cases h

theorem ofFile_sound {files : FileTree} {path : Path} {settings : Settings}
    (h : ofFile files path = .ok settings) : Sound settings := by
  unfold ofFile at h
  split at h
  · cases h
  · cases h
  · split at h
    · cases h
    · obtain ⟨pairs, _, hvalue⟩ := ofBytes_eq_ok h
      exact violation?_eq_none_iff.mp (ofValue_mapping_eq_ok_iff.mp hvalue).2.2

variable {path : Path} {settings : Settings} {w : World}

theorem outcome_load_ok (h : ((load path).outcome w).1 = .ok settings) :
    (load path).outcome w = (.ok settings, w.extend [.logged (loadedRecord path.plain settings)]) ∧
      Sound settings := by
  rw [outcome_load] at h ⊢
  cases hfile : ofFile w.files path.plain with
  | error fault =>
    rw [hfile] at h
    cases h
  | ok loaded =>
    rw [hfile] at h
    cases h
    exact ⟨rfl, ofFile_sound hfile⟩

theorem outcome_load_error {fault : Fault} (h : ((load path).outcome w).1 = .error fault) :
    (load path).outcome w = (.error fault, w) := by
  rw [load_result] at h
  rw [outcome_load, h]

end BuildDialect.Settings
