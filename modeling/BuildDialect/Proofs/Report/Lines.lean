import BuildDialect.Proofs.Files.Passing
import BuildDialect.Proofs.Parser.Verdict
import BuildDialect.Proofs.Settings.Loading
import BuildDialect.Report.Basic

/-!
What a report says about build files, one line for each. It goes through the files up to the first
whose path never reaches the system, if there is one: there it ends with a fault. Otherwise a last
line counts the files whose dialect is not found.
-/
namespace BuildDialect

open Process

def Trace.reported (trace : Trace) : List LogRecord :=
  trace.log.filter fun record => record.source = .report

theorem Trace.log_logged (records : List LogRecord) : log (records.map .logged) = records := by
  induction records with
  | nil => rfl
  | cons record rest ih => exact congrArg (record :: ·) ih

theorem Trace.reported_append (a b : Trace) : reported (a ++ b) = reported a ++ reported b := by
  rw [reported, log_append, List.filter_append, reported, reported]

theorem Trace.reported_logged {records : List LogRecord} {source : Source}
    (h : ∀ record ∈ records, record.source = source) (hne : source ≠ .report) :
    reported (records.map .logged) = [] := by
  rw [reported, log_logged, List.filter_eq_nil_iff]
  intro record hrecord
  simpa [h record hrecord] using hne

namespace Report

def line (files : FileTree) (default : Dialect) (file : RawText) : LogRecord :=
  match files.verdict ⟨file⟩ default with
  | .ok dialect => ⟨.info, .report, found dialect file⟩
  | .error (.unrecognized path name) => ⟨.error, .report, (Fault.unrecognized path name).message⟩
  | .error fault => ⟨.error, .report, "Cannot read " ++ file ++ ": " ++ fault.message⟩

theorem found_inj {dialect other : Dialect} {file : RawText} :
    found dialect file = found other file ↔ dialect = other := by
  refine ⟨fun h => ?_, fun h => h ▸ rfl⟩
  have hletter := congrArg List.head? h
  cases dialect <;> cases other <;>
    simp [found, Dialect.name, RawText.ofString, RawText.ofChars] at hletter ⊢

variable {files : FileTree} {default dialect : Dialect} {file : RawText}

theorem line_cases (files : FileTree) (default : Dialect) (file : RawText) :
    (∃ dialect, files.verdict ⟨file⟩ default = .ok dialect ∧
      line files default file = ⟨.info, .report, found dialect file⟩) ∨
    ((∀ dialect, files.verdict ⟨file⟩ default ≠ .ok dialect) ∧
      (line files default file).level = .error ∧ (line files default file).source = .report) := by
  unfold line
  cases files.verdict ⟨file⟩ default with
  | ok dialect => exact Or.inl ⟨dialect, rfl, rfl⟩
  | error fault =>
    refine Or.inr ⟨by simp, ?_⟩
    split
    · rename_i hfault
      cases hfault
    · exact ⟨rfl, rfl⟩
    · exact ⟨rfl, rfl⟩

theorem line_eq_found_iff : line files default file = ⟨.info, .report, found dialect file⟩ ↔
    files.verdict ⟨file⟩ default = .ok dialect := by
  obtain ⟨decided, hverdict, hline⟩ | ⟨hnone, hlevel, -⟩ := line_cases files default file
  · rw [hverdict, hline]
    simp [found_inj]
  · have hne : line files default file ≠ ⟨.info, .report, found dialect file⟩ := by
      intro h
      rw [h] at hlevel
      cases hlevel
    simp [hne, hnone dialect]

theorem line_level_iff : (line files default file).level = .error ↔
    ∀ dialect, files.verdict ⟨file⟩ default ≠ .ok dialect := by
  obtain ⟨decided, hverdict, hline⟩ | ⟨hnone, hlevel, -⟩ := line_cases files default file
  · simp [hverdict, hline]
  · simp [hlevel, hnone]

theorem line_source : (line files default file).source = .report := by
  obtain ⟨decided, hverdict, hline⟩ | ⟨hnone, -, hsource⟩ := line_cases files default file
  · rw [hline]
  · exact hsource

theorem outcome_reportFile (passable : Path.Passable ⟨file⟩) (default : Dialect) (w : World) :
    ∃ records : List LogRecord, (∀ record ∈ records, record.source = .detection) ∧
      (reportFile default file).outcome w =
        (.ok ((line w.files default file).level != .error),
          w.extend (records.map .logged ++ [.logged (line w.files default file)])) := by
  obtain ⟨records, hsource, hselect⟩ := outcome_selectDialect_verdict ⟨file⟩ default w
  refine ⟨records, hsource, ?_⟩
  unfold reportFile line
  rw [outcome_bind, outcome_attempt, hselect]
  cases hverdict : w.files.verdict ⟨file⟩ default with
  | ok dialect =>
    dsimp only
    rw [outcome_bind, World.outcome_log, World.extend_extend]
    rfl
  | error fault =>
    obtain ⟨cause, hread, rfl⟩ | ⟨name, rfl⟩ := FileTree.verdict_error hverdict
    · have hsystem : Fault.isFileFault (.file ⟨cause, ⟨file⟩⟩) = true := by
        exact FileTree.read_isSystem passable hread
      dsimp only
      rw [hsystem]
      simp only [Bool.not_true, Bool.false_eq_true, if_false]
      rw [outcome_bind, World.outcome_log, World.extend_extend]
      rfl
    · dsimp only
      rw [outcome_bind, World.outcome_log, World.extend_extend]
      rfl

theorem reportFile_reported (passable : Path.Passable ⟨file⟩) (default : Dialect) (w : World) :
    ∃ events : Trace, events.reported = [line w.files default file] ∧
      (reportFile default file).outcome w =
        (.ok ((line w.files default file).level != .error), w.extend events) := by
  obtain ⟨records, hsource, hfile⟩ := outcome_reportFile passable default w
  refine ⟨_, ?_, hfile⟩
  rw [Trace.reported_append, Trace.reported_logged hsource (by decide), List.nil_append]
  simp [Trace.reported, Trace.log, line_source]

theorem outcome_reportFile_barred {cause : FileCause} (h : Path.barred? ⟨file⟩ = some cause)
    (default : Dialect) (w : World) :
    (reportFile default file).outcome w = (.error (.file ⟨cause, ⟨file⟩⟩), w) := by
  have hread : w.files.read ⟨file⟩ = .error cause := FileTree.read_barred h
  have hsystem : Fault.isFileFault (.file ⟨cause, ⟨file⟩⟩) = false := Path.barred?_isSystem h
  unfold reportFile
  rw [outcome_bind, outcome_attempt, outcome_selectDialect_unreadable hread]
  dsimp only
  rw [hsystem]
  rfl

/-- The first of some paths that never reaches the system, as the fault that reading it is. -/
def barred? (names : List RawText) : Option FileFault :=
  names.findSome? fun file => (Path.barred? ⟨file⟩).map fun cause => ⟨cause, ⟨file⟩⟩

def reached (names : List RawText) : List RawText :=
  names.takeWhile fun file => Path.Passable ⟨file⟩

def failures (files : FileTree) (default : Dialect) (names : List RawText) : Nat :=
  names.countP fun file => (line files default file).level = .error

def counted (files : FileTree) (default : Dialect) (names : List RawText) : Except Fault Nat :=
  match barred? names with
  | some fault => .error (.file fault)
  | none => .ok (failures files default names)

section

variable {names : List RawText}

theorem barred?_eq_none_iff : barred? names = none ↔ ∀ file ∈ names, Path.Passable ⟨file⟩ := by
  rw [barred?, List.findSome?_eq_none_iff]
  refine forall₂_congr fun file _ => ?_
  rw [Option.map_eq_none_iff, Path.barred?_eq_none_iff]

theorem reached_of_passable (h : ∀ file ∈ names, Path.Passable ⟨file⟩) : reached names = names := by
  rw [reached, List.takeWhile_eq_self_iff]
  simpa using h

theorem counted_of_passable (h : ∀ file ∈ names, Path.Passable ⟨file⟩) (files : FileTree)
    (default : Dialect) : counted files default names = .ok (failures files default names) := by
  rw [counted, barred?_eq_none_iff.mpr h]

/-- A path that reaches the system adds one to the failures or nothing. -/
theorem counted_cons (passable : Path.Passable ⟨file⟩) (files : FileTree) (default : Dialect)
    (rest : List RawText) : counted files default (file :: rest) =
      (counted files default rest).map fun failed =>
        if (line files default file).level != .error then failed else failed + 1 := by
  have hbarred : barred? (file :: rest) = barred? rest := by
    rw [barred?, List.findSome?_cons, Path.barred?_eq_none_iff.mpr passable]
    rfl
  unfold counted
  rw [hbarred]
  cases barred? rest with
  | some fault => rfl
  | none =>
    rw [failures, List.countP_cons, ← failures]
    by_cases h : (line files default file).level = .error
    · simp [h, Except.map]
    · simp [h, Except.map]

theorem outcome_reportFiles (default : Dialect) (names : List RawText) (w : World) :
    ∃ events : Trace, events.reported = (reached names).map (line w.files default) ∧
      (reportFiles default names).outcome w =
        (counted w.files default names, w.extend events) := by
  induction names generalizing w with
  | nil => exact ⟨[], rfl, by rw [World.extend, List.append_nil]; rfl⟩
  | cons file rest ih =>
    by_cases passable : Path.Passable ⟨file⟩
    · obtain ⟨first, hfirst, hfile⟩ := reportFile_reported passable default w
      obtain ⟨events, hreported, hrest⟩ := ih (w.extend first)
      have hreached : reached (file :: rest) = file :: reached rest := by
        simp [reached, passable]
      refine ⟨first ++ events, ?_, ?_⟩
      · rw [Trace.reported_append, hfirst, hreported, hreached]
        rfl
      · have hsame : counted (w.extend first).files default rest =
            counted w.files default rest := rfl
        rw [reportFiles, outcome_bind, hfile]
        dsimp only
        rw [outcome_bind, hrest, World.extend_extend, counted_cons passable, hsame]
        cases counted w.files default rest <;> rfl
    · -- the report ends here, whatever the rest is
      obtain ⟨cause, hcause⟩ := Path.exists_barred passable
      have hreached : reached (file :: rest) = [] := by simp [reached, passable]
      have hbarred : barred? (file :: rest) = some ⟨cause, ⟨file⟩⟩ := by
        rw [barred?, List.findSome?_cons, hcause]
        rfl
      refine ⟨[], ?_, ?_⟩
      · rw [hreached]
        rfl
      · rw [reportFiles, outcome_bind, outcome_reportFile_barred hcause, counted, hbarred,
          World.extend, List.append_nil]

end

def answer (arguments : List RawText) (w : World) : Answer Exit :=
  ⟨((run arguments).outcome w).1, ((run arguments).outcome w).2.since w⟩

theorem answer_refused {arguments : List RawText} {misuse : Misuse}
    (h : Request.ofArguments arguments = .error (.misuse misuse)) (w : World) :
    ∃ message, answer arguments w = ⟨.ok ⟨2, "", message⟩, []⟩ := by
  have hrun : ∃ message, (run arguments).outcome w = (.ok ⟨2, "", message⟩, w) := by
    unfold run
    rw [h]
    exact ⟨_, rfl⟩
  obtain ⟨message, hrun⟩ := hrun
  have hsince : w.since w = [] := World.since_eq (List.append_nil _).symm
  exact ⟨message, by rw [answer, hrun, hsince]⟩

def summary (failed total : Nat) : List LogRecord :=
  if failed = 0 then []
  else [⟨.warning, .report, s!"{failed} of {total} build file(s) failed"⟩]

def exit (result : Except Fault Nat) : Except Fault Exit :=
  result.map fun failed => ⟨if failed = 0 then 0 else 1, "", ""⟩

/-- The last record of a report. A report that ends with a fault has none. -/
def closing (total : Nat) : Except Fault Nat → List LogRecord
  | .error _ => []
  | .ok failed => summary failed total

theorem closing_warning {total : Nat} {result : Except Fault Nat} {record : LogRecord}
    (h : record ∈ closing total result) : record.source = .report ∧ record.level = .warning := by
  cases result with
  | error fault => cases h
  | ok failed =>
    change record ∈ summary failed total at h
    unfold summary at h
    split_ifs at h
    · cases h
    · cases List.mem_singleton.mp h
      exact ⟨rfl, rfl⟩

section

variable {arguments : List RawText} {request : Request} {default : Dialect} {w : World}
  {first : Trace}

theorem outcome_carryOut {events : Trace} {result : Except Fault Nat}
    (hdefault : (defaultOf request).outcome w = (.ok default, w.extend first))
    (hfiles : (reportFiles default request.files).outcome (w.extend first) =
      (result, (w.extend first).extend events)) :
    (carryOut request).outcome w = (exit result, w.extend (first ++ events ++
      (closing request.files.length result).map .logged)) := by
  unfold carryOut
  rw [outcome_bind, hdefault]
  dsimp only
  rw [outcome_bind, hfiles, World.extend_extend]
  cases result with
  | error fault =>
    simp [closing, exit, Except.map]
  | ok failed =>
    dsimp only
    by_cases h : failed = 0
    · simp [h, closing, exit, summary, Except.map]
      rfl
    · simp only [h, if_false, closing, exit, summary, Except.map]
      rw [outcome_bind, World.outcome_log, World.extend_extend]
      rfl

theorem outcome_run (harguments : Request.ofArguments arguments = .ok request) (w : World) :
    (run arguments).outcome w = (carryOut request).outcome w := by
  unfold run
  rw [harguments]

/-- What a report comes to, wherever its default comes from. -/
theorem answer_carryOut (harguments : Request.ofArguments arguments = .ok request)
    (hdefault : (defaultOf request).outcome w = (.ok default, w.extend first))
    (hfirst : first.reported = []) :
    (answer arguments w).result = exit (counted w.files default request.files) ∧
      (answer arguments w).trace.reported = (reached request.files).map (line w.files default) ++
        closing request.files.length (counted w.files default request.files) := by
  obtain ⟨events, hreported, hfiles⟩ :=
    outcome_reportFiles default request.files (w.extend first)
  have hclosing : Trace.reported ((closing request.files.length
      (counted w.files default request.files)).map .logged) =
        closing request.files.length (counted w.files default request.files) := by
    rw [Trace.reported, Trace.log_logged, List.filter_eq_self]
    intro record hrecord
    exact decide_eq_true (closing_warning hrecord).1
  rw [answer, outcome_run harguments, outcome_carryOut hdefault hfiles]
  refine ⟨rfl, ?_⟩
  dsimp only
  rw [World.since_eq (World.extend_trace _ _), Trace.reported_append, Trace.reported_append,
    hfirst, hreported]
  exact congrArg (_ ++ ·) hclosing

end

section

variable {names : List RawText} {config : RawText} (hconfig : config ≠ "")
  {settings : Settings} {w : World}
  (loaded : ((Settings.load ⟨config⟩).outcome w).1 = .ok settings)

include hconfig loaded

/-- The default comes from the settings file. -/
theorem outcome_defaultOf : (defaultOf ⟨names, none, some config⟩).outcome w =
    (.ok settings.defaultDialect,
      w.extend [.logged (Settings.loadedRecord (Path.plain ⟨config⟩) settings)]) := by
  have hempty : config.isEmpty = false := by simpa using hconfig
  unfold defaultOf
  simp only [hempty, Bool.false_eq_true, if_false]
  rw [outcome_bind, (Settings.outcome_load_ok loaded).1]
  rfl

/-- What a report comes to whose default comes from a settings file. -/
theorem answer_loaded {arguments : List RawText}
    (harguments : Request.ofArguments arguments = .ok ⟨names, none, some config⟩) :
    (answer arguments w).result = exit (counted w.files settings.defaultDialect names) ∧
      (answer arguments w).trace.reported =
        (reached names).map (line w.files settings.defaultDialect) ++
          closing names.length (counted w.files settings.defaultDialect names) :=
  @answer_carryOut arguments ⟨names, none, some config⟩ _ w _ harguments
    (outcome_defaultOf hconfig loaded) rfl

end

end Report
end BuildDialect
