import BuildDialect.Proofs.Report.Account

/-!
Whether a report honours the settings file that its arguments name. It does where the name is one
that the report takes for a name, and where no path stands in the way that never reaches the system:
the report ends at such a path, and says nothing about the files after it.
-/
namespace BuildDialect

open Process

namespace Settings

variable {files : FileTree} {path : Path} {fault : Fault}

/-- A fault of loading settings that is a failed access is about the settings file. -/
theorem ofFile_path {cause : FileCause} {other : Path}
    (h : ofFile files path = .error (.file ⟨cause, other⟩)) : other = path := by
  unfold ofFile at h
  split at h
  · cases h
    rfl
  · cases h
  · split at h
    · cases h
      rfl
    · unfold ofBytes at h
      split at h
      · cases h
      · cases h
      · split at h
        · cases h
        · cases h
      · cases h

/-- There are no settings in the directory in which paths start. -/
theorem ofFile_here (files : FileTree) (settings : Settings) :
    ofFile files ⟨"."⟩ ≠ .ok settings := by
  intro h
  have hfind : ∃ content, files.find ⟨"."⟩ = .ok (.file content) := by
    unfold ofFile FileTree.read at h
    cases hitem : files.find ⟨"."⟩ with
    | error cause =>
      rw [FileTree.holds, hitem] at h
      cases cause <;> cases h
    | ok item =>
      rw [FileTree.holds, hitem] at h
      cases item with
      | file content => exact ⟨content, rfl⟩
      | sealed => cases h
      | directory => cases h
  obtain ⟨content, hfind⟩ := hfind
  obtain ⟨place, ⟨origin, -, hwalk⟩, hitem⟩ := FileTree.find_eq_ok_iff.mp hfind
  have hsteps : Path.steps ⟨"."⟩ = [RawText.ofString "."] := by decide
  rw [hsteps, FileTree.walk] at hwalk
  split at hwalk
  · cases hwalk
  · cases hwalk
  · cases hwalk
  · rename_i hdirectory
    rw [if_pos rfl, FileTree.walk] at hwalk
    cases hwalk
    rw [hdirectory] at hitem
    cases hitem

end Settings

namespace Report

def Unmarked (files : FileTree) (file : RawText) : Prop :=
  ∃ bytes, files.read ⟨file⟩ = .ok bytes ∧ BuildFile.markerName? bytes = none

/-- An answer to arguments that name a settings file honours it: it fails as loading does, with no
record for a file, or else reports each unmarked file with the default that is loaded. -/
structure Honours (config : RawText) (files : List RawText) (w : World) (answer : Answer Exit) :
    Prop where
  refused : ∀ fault, ((Settings.load ⟨config⟩).outcome w).1 = .error fault →
    answer.result = .error fault ∧ answer.trace.perFile = []
  taken : ∀ settings, ((Settings.load ⟨config⟩).outcome w).1 = .ok settings →
    ∀ front file back, files = front ++ file :: back → Unmarked w.files file →
      answer.trace.perFile[front.length]? =
        some ⟨.info, .report, found settings.defaultDialect file⟩

/-- When a settings file is honoured. An empty name never is, though no settings can be loaded from
it; and two hyphens alone only where loading would come to the built-in default. -/
structure Heeded (config : RawText) (files : List RawText) (w : World) : Prop where
  named : config ≠ ""
  separator : config = "--" → ∃ settings,
    ((Settings.load ⟨config⟩).outcome w).1 = .ok settings ∧
      ∀ file ∈ files, Unmarked w.files file → settings.defaultDialect = .pythonDsl
  reached : ∀ settings, ((Settings.load ⟨config⟩).outcome w).1 = .ok settings →
    ∀ front file back, files = front ++ file :: back → Unmarked w.files file →
      ∀ other ∈ front, Path.Passable ⟨other⟩

section

variable {files : FileTree} {default dialect : Dialect} {file : RawText}

theorem Unmarked.passable (h : Unmarked files file) : Path.Passable ⟨file⟩ := by
  obtain ⟨bytes, hread, -⟩ := h
  by_contra hnot
  obtain ⟨cause, hcause⟩ := Path.exists_barred hnot
  rw [FileTree.read_barred hcause] at hread
  cases hread

theorem Unmarked.line_eq (h : Unmarked files file) :
    line files default file = ⟨.info, .report, found default file⟩ := by
  obtain ⟨bytes, hread, hmarker⟩ := h
  rw [line_eq_found_iff, FileTree.verdict, hread]
  dsimp only
  rw [hmarker]

end

theorem getElem?_reached {front back : List RawText} {file other : RawText}
    (hfile : Path.Passable ⟨file⟩) :
    (reached (front ++ file :: back))[front.length]? = some other ↔
      (∀ f ∈ front, Path.Passable ⟨f⟩) ∧ file = other := by
  induction front with
  | nil => simp [reached, hfile]
  | cons first rest ih =>
    by_cases hfirst : Path.Passable ⟨first⟩
    · have hreached : reached (first :: (rest ++ file :: back)) =
          first :: reached (rest ++ file :: back) := by
        simp [reached, hfirst]
      rw [List.cons_append, hreached, List.length_cons, List.getElem?_cons_succ, ih]
      simp [hfirst]
    · simp [reached, hfirst]

/-- A fault of a report that has its default is that of a path that never reaches the system. -/
theorem exit_error {files : FileTree} {default : Dialect} {names : List RawText} {fault : Fault}
    (h : exit (counted files default names) = .error fault) :
    ∃ path cause, path.barred? = some cause ∧ fault = .file ⟨cause, path⟩ := by
  cases hbarred : barred? names with
  | none =>
    rw [counted, hbarred] at h
    cases h
  | some other =>
    rw [counted, hbarred] at h
    cases h
    obtain ⟨file, -, hfile⟩ := List.exists_of_findSome?_eq_some hbarred
    obtain ⟨cause, hcause, rfl⟩ := Option.map_eq_some_iff.mp hfile
    exact ⟨⟨file⟩, cause, hcause, rfl⟩

section

variable {arguments : List RawText} {request : Request} {default : Dialect} {w : World}

/-- A report that fails to get its default says nothing. -/
theorem answer_undetermined {fault : Fault}
    (harguments : Request.ofArguments arguments = .ok request)
    (hdefault : (defaultOf request).outcome w = (.error fault, w)) :
    answer arguments w = ⟨.error fault, []⟩ := by
  have hsince : w.since w = [] := World.since_eq (List.append_nil _).symm
  have hcarried : (carryOut request).outcome w = (.error fault, w) := by
    unfold carryOut
    rw [outcome_bind, hdefault]
  rw [answer, outcome_run harguments, hcarried, hsince]

theorem perFile_of_reached {trace : Trace} {files : FileTree} {names : List RawText}
    {result : Except Fault Nat} (hreported : trace.reported =
      (reached names).map (line files default) ++ closing names.length result) :
    trace.perFile = (reached names).map (line files default) := by
  have hclosing : (closing names.length result).filter
      (fun record => record.level ≠ .warning) = [] := by
    rw [List.filter_eq_nil_iff]
    intro record hrecord
    simpa using (closing_warning hrecord).2
  rw [Trace.perFile, hreported, List.filter_append, filter_lines, hclosing, List.append_nil]

end

section

variable {w : World} {config : RawText} {files arguments : List RawText} {fault : Fault}

theorem load_empty (w : World) (settings : Settings) :
    ((Settings.load ⟨""⟩).outcome w).1 ≠ .ok settings := by
  have hplain : Path.plain ⟨""⟩ = ⟨"."⟩ := by decide
  rw [Settings.load_result, hplain]
  exact Settings.ofFile_here w.files settings

theorem outcome_defaultOf_failed (hconfig : config ≠ "")
    (h : ((Settings.load ⟨config⟩).outcome w).1 = .error fault) :
    (defaultOf ⟨files, none, some config⟩).outcome w = (.error fault, w) := by
  have hempty : config.isEmpty = false := by simpa using hconfig
  unfold defaultOf
  simp only [hempty, Bool.false_eq_true, if_false]
  rw [outcome_bind, Settings.outcome_load_error h]

/-- An unmarked file is reported with the default of the report, if the report gets to it. -/
theorem unmarked_reported_iff {trace : Trace} {default dialect : Dialect} {file : RawText}
    {front back : List RawText} (h : Unmarked w.files file)
    (hperFile : trace.perFile = (reached (front ++ file :: back)).map (line w.files default)) :
    trace.perFile[front.length]? = some ⟨.info, .report, found dialect file⟩ ↔
      (∀ other ∈ front, Path.Passable ⟨other⟩) ∧ default = dialect := by
  rw [hperFile, List.getElem?_map, Option.map_eq_some_iff]
  constructor
  · rintro ⟨other, hother, hline⟩
    obtain ⟨hfront, rfl⟩ := (getElem?_reached h.passable).mp hother
    rw [h.line_eq] at hline
    have hsame := congrArg LogRecord.message hline
    exact ⟨hfront, found_inj.mp hsame⟩
  · rintro ⟨hfront, rfl⟩
    exact ⟨file, (getElem?_reached h.passable).mpr ⟨hfront, rfl⟩, h.line_eq⟩

/-- All unmarked files are reported with a dialect if the report gets to them and has it for its
default. -/
theorem unmarked_reported_all_iff {trace : Trace} {default dialect : Dialect}
    (hperFile : trace.perFile = (reached files).map (line w.files default)) :
    (∀ front file back, files = front ++ file :: back → Unmarked w.files file →
      trace.perFile[front.length]? = some ⟨.info, .report, found dialect file⟩) ↔
      (∀ front file back, files = front ++ file :: back → Unmarked w.files file →
        ∀ other ∈ front, Path.Passable ⟨other⟩) ∧
        ∀ file ∈ files, Unmarked w.files file → default = dialect := by
  constructor
  · intro h
    constructor
    · rintro front file back rfl hunmarked
      exact ((unmarked_reported_iff hunmarked hperFile).mp (h front file back rfl hunmarked)).1
    · intro file hfile hunmarked
      obtain ⟨front, back, rfl⟩ := List.append_of_mem hfile
      exact ((unmarked_reported_iff hunmarked hperFile).mp (h front file back rfl hunmarked)).2
  · rintro ⟨hreached, hsame⟩ front file back rfl hunmarked
    have hfront := hreached front file back rfl hunmarked
    have hdefault := hsame file (List.mem_append_right front List.mem_cons_self) hunmarked
    exact (unmarked_reported_iff hunmarked hperFile).mpr ⟨hfront, hdefault⟩

/-- A report that goes by the built-in default does not fail as loading the settings file does. -/
theorem exit_ne_load {names : List RawText} {default : Dialect}
    (hignored : config = "" ∨ config = "--")
    (hload : ((Settings.load ⟨config⟩).outcome w).1 = .error fault) :
    exit (counted w.files default names) ≠ .error fault := by
  intro hexit
  obtain ⟨path, cause, hbarred, rfl⟩ := exit_error hexit
  rw [Settings.load_result] at hload
  have hpath : path = Path.plain ⟨config⟩ := Settings.ofFile_path hload
  have hfree : (Path.plain ⟨config⟩).barred? = none := by
    rcases hignored with rfl | rfl
    · decide
    · decide
  rw [hpath, hfree] at hbarred
  cases hbarred

/-- A settings file whose name the report takes for none is honoured only by chance. -/
theorem honours_iff_of_ignored (names : Request.Names arguments files config)
    (hignored : config = "" ∨ config = "--") :
    Honours config files w (answer arguments w) ↔ Heeded config files w := by
  have hnone : (if config = "--" then none else some config).getD "" = "" := by
    rcases hignored with rfl | rfl
    · rfl
    · rfl
  obtain ⟨hresult, hreported⟩ :=
    answer_carryOut names.ofArguments (outcome_defaultOf_given hnone files none w) rfl
  have hperFile := perFile_of_reached hreported
  constructor
  · intro h
    have hloaded : ∃ settings, ((Settings.load ⟨config⟩).outcome w).1 = .ok settings := by
      cases hload : ((Settings.load ⟨config⟩).outcome w).1 with
      | ok settings => exact ⟨settings, rfl⟩
      | error fault =>
        have hrefused := (h.refused fault hload).1
        exact absurd (hresult.symm.trans hrefused) (exit_ne_load hignored hload)
    obtain ⟨settings, hload⟩ := hloaded
    have htaken (other : Settings) (hother : ((Settings.load ⟨config⟩).outcome w).1 = .ok other) :=
      (unmarked_reported_all_iff hperFile).mp (h.taken other hother)
    refine ⟨?_, fun _ => ⟨settings, hload, ?_⟩, fun other hother => (htaken other hother).1⟩
    · rintro rfl
      exact load_empty w settings hload
    · intro file hfile hunmarked
      exact ((htaken settings hload).2 file hfile hunmarked).symm
  · intro h
    obtain ⟨loaded, hloaded, hsame⟩ := h.separator (hignored.resolve_left h.named)
    refine ⟨fun fault hload => ?_, fun settings hload => ?_⟩
    · rw [hloaded] at hload
      cases hload
    · have hreached := h.reached settings hload
      rw [hloaded] at hload
      cases hload
      exact (unmarked_reported_all_iff hperFile).mpr
        ⟨hreached, fun file hfile hunmarked => (hsame file hfile hunmarked).symm⟩

/-- A report honours the settings file that its arguments name just if the name is one that it takes
for a name, and no path stands in the way that never reaches the system. -/
theorem answer_honours_iff (names : Request.Names arguments files config) (w : World) :
    Honours config files w (answer arguments w) ↔ Heeded config files w := by
  by_cases hignored : config = "" ∨ config = "--"
  · exact honours_iff_of_ignored names hignored
  obtain ⟨hempty, hseparator⟩ := not_or.mp hignored
  have hrequest := names.ofArguments
  rw [if_neg hseparator] at hrequest
  cases hload : ((Settings.load ⟨config⟩).outcome w).1 with
  | error fault =>
    have hanswer : answer arguments w = ⟨.error fault, []⟩ :=
      answer_undetermined hrequest (outcome_defaultOf_failed hempty hload)
    constructor
    · intro _
      refine ⟨hempty, fun h => absurd h hseparator, fun settings hother => ?_⟩
      rw [hload] at hother
      cases hother
    · intro _
      rw [hanswer]
      refine ⟨fun other hother => ?_, fun settings hother => ?_⟩
      · rw [hload] at hother
        cases hother
        exact ⟨rfl, rfl⟩
      · rw [hload] at hother
        cases hother
  | ok settings =>
    have hperFile := perFile_of_reached (answer_loaded hempty hload hrequest).2
    constructor
    · intro h
      refine ⟨hempty, fun h => absurd h hseparator, fun other hother => ?_⟩
      exact ((unmarked_reported_all_iff hperFile).mp (h.taken other hother)).1
    · intro h
      refine ⟨fun fault hother => ?_, fun other hother => ?_⟩
      · rw [hload] at hother
        cases hother
      · have hreached := h.reached other hother
        rw [hload] at hother
        cases hother
        exact (unmarked_reported_all_iff hperFile).mpr ⟨hreached, fun _ _ _ => rfl⟩

theorem answer_honours_iff_sample :
    let arguments := ["--conf=nope", "--config", "parser.yaml", "TARGETS"]
    Request.Names arguments ["TARGETS"] "parser.yaml" ∧
      ((Settings.load ⟨"parser.yaml"⟩).outcome Sample.narrow).1 = .ok Sample.single ∧
      Heeded "parser.yaml" ["TARGETS"] Sample.narrow ∧
      Honours "parser.yaml" ["TARGETS"] Sample.narrow (answer arguments Sample.narrow) := by
  intro arguments
  have hnames : Request.Names arguments ["TARGETS"] "parser.yaml" :=
    ⟨[.option .config false (some "nope"), .option .config false none, .argument "parser.yaml",
      .argument "TARGETS"], ⟨some ["TARGETS"], true, none, some (some "parser.yaml"), []⟩, none,
      some "parser.yaml", by decide, by decide, by decide, by decide⟩
  have hheeded : Heeded "parser.yaml" ["TARGETS"] Sample.narrow := by
    refine ⟨by decide, fun h => absurd h (by decide), ?_⟩
    intro settings _ front file back hsplit _ other hother
    cases front with
    | nil => cases hother
    | cons first rest =>
      obtain ⟨-, hrest⟩ := List.cons.inj hsplit
      exact absurd hrest (by simp)
  exact ⟨hnames, Sample.loaded "parser.yaml" (by decide), hheeded,
    (answer_honours_iff hnames Sample.narrow).mpr hheeded⟩

/-- No settings can be loaded from an empty name, and the report goes by the built-in default. -/
theorem config_ignored :
    let arguments := ["--config", "", "TARGETS"]
    Request.Names arguments ["TARGETS"] "" ∧
      ((Settings.load ⟨""⟩).outcome Sample.narrow).1 = .error (.file ⟨.isDirectory, ⟨"."⟩⟩) ∧
      (answer arguments Sample.narrow).result = .ok ⟨0, "", ""⟩ ∧
      (answer arguments Sample.narrow).trace.reported =
        [⟨.info, .report, found .pythonDsl "TARGETS"⟩] ∧
      ¬ Honours "" ["TARGETS"] Sample.narrow (answer arguments Sample.narrow) := by
  intro arguments
  have hnames : Request.Names arguments ["TARGETS"] "" :=
    ⟨[.option .config false none, .argument "", .argument "TARGETS"],
      ⟨some ["TARGETS"], true, none, some (some ""), []⟩, none, some "", by decide, by decide,
      by decide, by decide⟩
  have hload : ((Settings.load ⟨""⟩).outcome Sample.narrow).1 =
      .error (.file ⟨.isDirectory, ⟨"."⟩⟩) := by rfl
  have hresult : (answer arguments Sample.narrow).result = .ok ⟨0, "", ""⟩ := by rfl
  refine ⟨hnames, hload, hresult, by rfl, fun honours => ?_⟩
  obtain ⟨hfailed, -⟩ := honours.refused _ hload
  rw [hresult] at hfailed
  cases hfailed

end

end Report
end BuildDialect
