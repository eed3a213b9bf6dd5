import BuildDialect.Proofs.Files.Writing
import BuildDialect.Proofs.Settings.Loading
import BuildDialect.Proofs.Yaml.Implicit
import BuildDialect.Proofs.Yaml.Listing

/-!
Settings that are saved and loaded again. The text of a settings file is a listing after a preface,
whatever the settings are, so that reading it gives what the settings are dumped as. The rules that
concern both fields are checked only then.
-/
namespace BuildDialect

theorem Dialect.isWord_name (d : Dialect) : Yaml.IsWord d.name.toList := by
  cases d with
  | pythonDsl => exact ⟨by decide, List.all_eq_true.mp (by decide)⟩
  | skylark => exact ⟨by decide, List.all_eq_true.mp (by decide)⟩

theorem Dialect.tagOf_name (d : Dialect) :
    Yaml.Implicit.tagOf (.ofChars d.name.toList) = .text := by
  refine Yaml.Implicit.tagOf_word d.isWord_name ?_ ?_
  · cases d with
    | pythonDsl => decide
    | skylark => decide
  · cases d with
    | pythonDsl => decide
    | skylark => decide

namespace Settings

open Process

variable {s : Settings} {path : Path} {violation : Violation}

theorem writtenEnabled_toList (enabled : List Dialect) : (writtenEnabled enabled).toList =
    enabledKey.toList ++ ':' :: Yaml.listText (enabled.map fun d => d.name.toList) := by
  have hitem (d : Dialect) : s!"- {d.name}\n".toList = '-' :: ' ' :: d.name.toList ++ ['\n'] := by
    rw [String.toList_append, String.toList_append]
    rfl
  cases enabled with
  | nil => decide +kernel
  | cons d rest =>
    have hkey : s!"{enabledKey}:\n".toList = enabledKey.toList ++ [':', '\n'] := by
      rw [String.toList_append]
      rfl
    have hitems : (String.join ((d :: rest).map fun d => s!"- {d.name}\n")).toList =
        Yaml.itemLines ((d :: rest).map fun d => d.name.toList) := by
      rw [String.toList_join, List.flatMap_map, Yaml.itemLines, List.flatMap_map]
      simp only [hitem]
    have hwritten : writtenEnabled (d :: rest) =
        s!"{enabledKey}:\n" ++ String.join ((d :: rest).map fun d => s!"- {d.name}\n") := rfl
    rw [hwritten, String.toList_append, hkey, hitems, List.append_assoc]
    rfl

theorem written_toList (s : Settings) : s.written.toList = heading.toList ++
    Yaml.listing defaultKey.toList s.defaultDialect.name.toList enabledKey.toList
      (s.enabled.map fun d => d.name.toList) := by
  have hdefault : s!"{defaultKey}: {s.defaultDialect.name}\n".toList =
      defaultKey.toList ++ ':' :: ' ' :: (s.defaultDialect.name.toList ++ ['\n']) := by
    rw [String.toList_append, String.toList_append, String.toList_append, List.append_assoc,
      List.append_assoc]
    rfl
  rw [written, String.toList_append, String.toList_append, hdefault, writtenEnabled_toList,
    Yaml.listing]
  simp

theorem heading_toList : heading.toList =
    '#' :: " hybrid-buildfile parser configuration".toList ++
      '\n' :: ('#' :: " Known syntaxes: PYTHON_DSL, SKYLARK".toList ++ '\n' :: ['\n']) := by
  have hnames : Dialect.knownNames = "PYTHON_DSL, SKYLARK" := by decide +kernel
  have happend : heading.toList =
      "# hybrid-buildfile parser configuration\n# Known syntaxes: ".toList ++
        Dialect.knownNames.toList ++ "\n\n".toList := by
    unfold heading
    rw [String.toList_append, String.toList_append]
    rfl
  rw [happend, hnames]
  decide

theorem isPreface_heading : Yaml.IsPreface heading.toList := by
  have hfree {text : List Char} (h : text.any Yaml.isBreak = false) :
      ∀ c ∈ text, Yaml.isBreak c = false :=
    fun c hc => Bool.eq_false_iff.mpr (List.any_eq_false.mp h c hc)
  rw [heading_toList]
  exact .comment (hfree (by decide)) (.comment (hfree (by decide)) (.line .nil))

theorem isWord_defaultKey : Yaml.IsWord defaultKey.toList :=
  ⟨by decide, List.all_eq_true.mp (by decide)⟩

theorem isWord_enabledKey : Yaml.IsWord enabledKey.toList :=
  ⟨by decide, List.all_eq_true.mp (by decide)⟩

/-- What is written of settings is what they are dumped as. -/
theorem read_written (s : Settings) :
    Yaml.read depth (Utf8.encode s.written.toList) = .ok s.dump := by
  have husual : ∀ c ∈ heading.toList, Yaml.isUsual c := by
    rw [heading_toList]
    exact List.all_eq_true.mp (by decide)
  have hnames : ∀ word ∈ s.enabled.map fun d => d.name.toList, Yaml.IsWord word := by
    intro word hword
    obtain ⟨d, _, rfl⟩ := List.mem_map.mp hword
    exact d.isWord_name
  have hdefaultTag := Yaml.Implicit.tagOf_word isWord_defaultKey (by decide) (by decide)
  have henabledTag := Yaml.Implicit.tagOf_word isWord_enabledKey (by decide) (by decide)
  have htext : ∀ text ∈ defaultKey.toList :: s.defaultDialect.name.toList :: enabledKey.toList ::
      s.enabled.map fun d => d.name.toList, Yaml.Implicit.tagOf (.ofChars text) = .text := by
    simp only [List.forall_mem_cons]
    refine ⟨hdefaultTag, s.defaultDialect.tagOf_name, henabledTag, ?_⟩
    intro text hmem
    obtain ⟨d, _, rfl⟩ := List.mem_map.mp hmem
    exact d.tagOf_name
  have hread := Yaml.read_listing isWord_defaultKey s.defaultDialect.isWord_name
    isWord_enabledKey hnames isPreface_heading husual (by decide) (by decide) htext
  rw [written_toList]
  refine hread.trans ?_
  simp only [dump, List.map_map]
  rfl

/-- The first rule that settings break. -/
inductive Breach (s : Settings) : Violation → Prop
  | nothingEnabled (h : s.enabled = []) : Breach s .nothingEnabled
  | repeated (hsome : s.enabled ≠ []) (h : ¬ s.enabled.Nodup) :
      Breach s (.repeated (Settings.repeated s.enabled))
  | defaultNotEnabled (hsome : s.enabled ≠ []) (hnodup : s.enabled.Nodup)
      (h : s.defaultDialect ∉ s.enabled) :
      Breach s (.defaultNotEnabled s.defaultDialect s.enabled)

theorem Breach.violation? (h : Breach s violation) : s.violation? = some violation := by
  unfold Settings.violation?
  cases h with
  | nothingEnabled h => simp [h]
  | repeated hsome h =>
    have hrepeated : Settings.repeated s.enabled ≠ [] := fun hnil => h (repeated_eq_nil_iff.mp hnil)
    simp [hsome, hrepeated]
  | defaultNotEnabled hsome hnodup h =>
    have hrepeated := repeated_eq_nil_iff.mpr hnodup
    simp [hsome, hrepeated, h]

/-- Settings that are not sound break a rule. -/
theorem exists_breach (h : ¬ Sound s) : ∃ violation, Breach s violation := by
  by_cases hsome : s.enabled = []
  · exact ⟨_, .nothingEnabled hsome⟩
  · by_cases hnodup : s.enabled.Nodup
    · have hdefault : s.defaultDialect ∉ s.enabled := fun hmem => h ⟨hsome, hnodup, hmem⟩
      exact ⟨_, .defaultNotEnabled hsome hnodup hdefault⟩
    · exact ⟨_, .repeated hsome hnodup⟩

theorem Breach.kind (h : Breach s violation) : violation.kind = "value_error" := by
  cases h with
  | nothingEnabled => rfl
  | repeated => rfl
  | defaultNotEnabled => rfl

theorem Breach.location (h : Breach s violation) : violation.location = [] := by
  cases h with
  | nothingEnabled => rfl
  | repeated => rfl
  | defaultNotEnabled => rfl

theorem Breach.fault (h : Breach s violation) :
    SettingsFault.ofViolations [violation] = .invalid [violation] := by
  cases h with
  | nothingEnabled => rfl
  | repeated => rfl
  | defaultNotEnabled => rfl

theorem ofBytes_written (path : Path) (s : Settings) :
    ofBytes path (Utf8.encode s.written.toList) =
      match ofValue s.dump with
      | .ok settings => .ok settings
      | .error violations => .error (.settings (.ofViolations violations)) := by
  unfold ofBytes
  rw [read_written]
  rfl

theorem ofBytes_written_sound (path : Path) (sound : Sound s) :
    ofBytes path (Utf8.encode s.written.toList) = .ok s := by
  rw [ofBytes_written, ofValue_dump, violation?_eq_none_iff.mpr sound]

theorem ofBytes_written_breach (path : Path) (h : Breach s violation) :
    ofBytes path (Utf8.encode s.written.toList) = .error (.settings (.invalid [violation])) := by
  rw [ofBytes_written, ofValue_dump, h.violation?]
  dsimp only
  rw [h.fault]

variable {w : World}

theorem outcome_change (path : Path) (step : FileTree → Path → Except FileCause FileTree)
    (w : World) : (Action.change path step).outcome w =
      match step w.files path with
      | .ok files => (.ok (), { w with files })
      | .error cause => (.error (.file ⟨cause, path⟩), w) := by
  unfold Action.change
  rw [outcome_bind, Action.outcome_ask]
  cases step w.files path with
  | error cause => rfl
  | ok files => rfl

def savedRecord (path : Path) : LogRecord :=
  ⟨.info, .settings, "Saved config to " ++ path.text⟩

/-- Directories stay that are made before the file turns out not to be writable. -/
theorem outcome_save (s : Settings) (path : Path) (w : World) : (s.save path).outcome w =
    match (Action.makeDirectories (PlainPath.ofPath path).parent).outcome w with
    | (.error fault, made) => (.error fault, made)
    | (.ok (), made) =>
      match made.files.write path.plain (Utf8.encode s.written.toList) with
      | .error cause => (.error (.file ⟨cause, path.plain⟩), made)
      | .ok files =>
        (.ok (), World.extend { made with files } [.logged (savedRecord path.plain)]) := by
  have hsave : s.save path = (do
      Action.makeDirectories (PlainPath.ofPath path).parent
      Action.change path.plain fun files p => files.write p (Utf8.encode s.written.toList)
      Action.log .info .settings ("Saved config to " ++ path.plain.text)) := rfl
  rw [hsave, outcome_bind]
  rcases (Action.makeDirectories (PlainPath.ofPath path).parent).outcome w with
    ⟨fault | value, made⟩
  · rfl
  · dsimp only
    rw [outcome_bind, outcome_change]
    cases made.files.write path.plain (Utf8.encode s.written.toList) with
    | error cause => rfl
    | ok files => rfl

/-- Settings are written to the file from which they are loaded. -/
theorem files_save (h : ((s.save path).outcome w).1 = .ok ()) : ∃ before : FileTree,
    before.write path.plain (Utf8.encode s.written.toList) =
      .ok ((s.save path).outcome w).2.files := by
  rw [outcome_save] at h ⊢
  rcases hmade : (Action.makeDirectories (PlainPath.ofPath path).parent).outcome w with
    ⟨fault | value, made⟩
  · rw [hmade] at h
    cases h
  · rw [hmade] at h
    refine ⟨made.files, ?_⟩
    dsimp only at h ⊢
    cases hwrite : made.files.write path.plain (Utf8.encode s.written.toList) with
    | error cause =>
      rw [hwrite] at h
      cases h
    | ok files => rfl

theorem outcome_load_saved (h : ((s.save path).outcome w).1 = .ok ()) :
    ((load path).outcome ((s.save path).outcome w).2).1 =
      ofBytes path.plain (Utf8.encode s.written.toList) := by
  obtain ⟨before, hwrite⟩ := files_save h
  have hfile : ofFile ((s.save path).outcome w).2.files path.plain =
      ofBytes path.plain (Utf8.encode s.written.toList) := by
    rw [ofFile, FileTree.holds_write hwrite]
    dsimp only
    rw [FileTree.read_write hwrite]
  rw [load_result, hfile]

/-- Loading undoes saving where the settings are sound; otherwise the first rule that they break is
reported, and nothing else. -/
theorem load_save (h : ((s.save path).outcome w).1 = .ok ()) :
    (Sound s → ((load path).outcome ((s.save path).outcome w).2).1 = .ok s) ∧
      (¬ Sound s → ∃ violation, Breach s violation ∧ violation.kind = "value_error" ∧
        violation.location = [] ∧ ((load path).outcome ((s.save path).outcome w).2).1 =
          .error (.settings (.invalid [violation]))) := by
  rw [outcome_load_saved h]
  constructor
  · intro sound
    exact ofBytes_written_sound path.plain sound
  · intro hsound
    obtain ⟨violation, hbreach⟩ := exists_breach hsound
    exact ⟨violation, hbreach, hbreach.kind, hbreach.location,
      ofBytes_written_breach path.plain hbreach⟩

theorem eq_ok_of_isOk {result : Except Fault Unit} (h : result.isOk) : result = .ok () := by
  cases result with
  | error fault => cases h
  | ok value => rfl

theorem load_save_sample :
    let s : Settings := ⟨.skylark, [.skylark, .pythonDsl, .skylark]⟩
    let path : Path := ⟨"configs//parser.yaml"⟩
    ((s.save path).outcome .fresh).1 = .ok () ∧
      ((load path).outcome ((s.save path).outcome .fresh).2).1 =
        .error (.settings (.invalid [.repeated [.skylark]])) := by
  intro s path
  have hdone : ((Settings.save ⟨.skylark, [.skylark, .pythonDsl, .skylark]⟩
      ⟨"configs//parser.yaml"⟩).outcome .fresh).1.isOk = true := by decide +kernel
  have hsaved : ((s.save path).outcome .fresh).1 = .ok () := eq_ok_of_isOk hdone
  have hsound : ¬ Sound s := fun sound => absurd sound.nodup (by decide)
  obtain ⟨violation, hbreach, -, -, hloaded⟩ := (load_save hsaved).2 hsound
  refine ⟨hsaved, ?_⟩
  cases hbreach with
  | nothingEnabled h => cases h
  | repeated => exact hloaded
  | defaultNotEnabled _ hnodup => exact absurd hnodup (by decide)

end Settings
end BuildDialect
