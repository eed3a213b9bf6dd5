import BuildDialect.Proofs.Report.Agreement

/-!
The account that a report gives of build files where no settings are loaded. One record for each
file says what asking for its dialect comes to, whatever is wrong with the others; a last one counts
the files at fault. So an account of two lists of files is put together from those of each. There is
none if a path never reaches the system, for the report does not get past it.
-/
namespace BuildDialect

open Process

def Trace.perFile (trace : Trace) : List LogRecord :=
  trace.reported.filter fun record => record.level ≠ .warning

def Trace.failed (trace : Trace) : Nat :=
  trace.reported.countP fun record => record.level = .error

namespace Report

open Word

/-- What is said about a build file: what asking for the dialect of that file alone comes to. -/
inductive Said (w : World) (default : Dialect) (file : RawText) : LogRecord → Prop
  | found {dialect : Dialect}
      (h : ((selectDialect ⟨file⟩ default).outcome w).1 = .ok dialect) :
      Said w default file ⟨.info, .report, found dialect file⟩
  | unknown {name : String}
      (h : ((selectDialect ⟨file⟩ default).outcome w).1 = .error (.unrecognized ⟨file⟩ name)) :
      Said w default file ⟨.error, .report,
        s!"Unrecognized syntax [{name}] requested for build file [" ++ file ++ "]"⟩
  | unreadable {cause : FileCause} {number : Nat} {words : String}
      (hreport : cause.report? = some (number, words))
      (h : ((selectDialect ⟨file⟩ default).outcome w).1 = .error (.file ⟨cause, ⟨file⟩⟩)) :
      Said w default file ⟨.error, .report, "Cannot read " ++ file ++ ": " ++
        s!"[Errno {number}] {words}: {Quoted.quoteRaw file}"⟩

/-- What is reported on files in an answer: one record for each of them in order, and one more at
the end if any is at fault, which the exit code says too. -/
structure Account (w : World) (default : Dialect) (files : List RawText) (answer : Answer Exit) :
    Prop where
  each : List.Forall₂ (Said w default) files answer.trace.perFile
  reported : answer.trace.reported =
    answer.trace.perFile ++ summary answer.trace.failed files.length
  result : answer.result = .ok ⟨if answer.trace.failed = 0 then 0 else 1, "", ""⟩

section

variable {w : World} {default : Dialect} {file : RawText} {record : LogRecord}

/-- Only one thing is said about a file. -/
theorem Said.unique {other : LogRecord} (h : Said w default file record)
    (h' : Said w default file other) : record = other := by
  cases h <;> cases h' <;> simp_all

end

/-- What is said about files is no summary. -/
theorem filter_lines (files : FileTree) (default : Dialect) (names : List RawText) :
    (names.map (line files default)).filter (fun record => record.level ≠ .warning) =
      names.map (line files default) := by
  rw [List.filter_eq_self, List.forall_mem_map]
  intro file _
  obtain ⟨dialect, -, hline⟩ | ⟨-, hlevel, -⟩ := line_cases files default file
  · simp [hline]
  · simp [hlevel]

section

variable {trace : Trace} {files : FileTree} {default : Dialect} {names : List RawText}
  (hreported : trace.reported =
    names.map (line files default) ++ summary (failures files default names) names.length)

include hreported

end

theorem outcome_defaultOf_given {config : Option RawText} (hconfig : config.getD "" = "")
    (files : List RawText) (given : Option Dialect) (w : World) :
    (defaultOf ⟨files, given, config⟩).outcome w = (.ok (given.getD .pythonDsl), w.extend []) := by
  have hnone : w.extend [] = w := by rw [World.extend, List.append_nil]
  rw [hnone]
  cases config with
  | none => rfl
  | some text =>
    cases hconfig
    rfl

end Report
end BuildDialect
