import BuildDialect.Proofs.Files.Passing
import BuildDialect.Proofs.Parser.Routing

/-!
The verdict on a build file, which depends on the files alone, and what a dispatcher makes of it: it
selects the dialect, or finds that it lacks a parser for it.
-/
namespace BuildDialect

open Process

theorem Dialect.name_inj {d other : Dialect} : d.name = other.name ↔ d = other := by
  cases d <;> cases other <;> decide

namespace FileTree

def verdict (files : FileTree) (path : Path) (default : Dialect) : Except Fault Dialect :=
  match files.read path with
  | .error cause => .error (.file ⟨cause, path⟩)
  | .ok bytes =>
    match BuildFile.markerName? bytes with
    | none => .ok default
    | some name =>
      match Dialect.ofName? name with
      | none => .error (.unrecognized path name)
      | some dialect => .ok dialect

/-- Why nothing is decided about a build file. -/
theorem verdict_error {files : FileTree} {path : Path} {default : Dialect} {fault : Fault}
    (h : files.verdict path default = .error fault) :
    (∃ cause, files.read path = .error cause ∧ fault = .file ⟨cause, path⟩) ∨
      ∃ name, fault = .unrecognized path name := by
  unfold verdict at h
  split at h
  · rename_i cause hread
    cases h
    exact Or.inl ⟨cause, hread, rfl⟩
  · split at h
    · cases h
    · split at h
      · cases h
        exact Or.inr ⟨_, rfl⟩
      · cases h

end FileTree

theorem outcome_selectDialect_verdict (path : Path) (default : Dialect) (w : World) :
    ∃ records : List LogRecord, (∀ record ∈ records, record.source = .detection) ∧
      (selectDialect path default).outcome w =
        (w.files.verdict path default, w.extend (records.map .logged)) := by
  have hnone : w.extend [] = w := by rw [World.extend, List.append_nil]
  unfold FileTree.verdict
  cases hread : w.files.read path with
  | error cause =>
    refine ⟨[], List.forall_mem_nil _, ?_⟩
    rw [outcome_selectDialect_unreadable hread, List.map_nil, hnone]
  | ok bytes =>
    rw [outcome_selectDialect hread]
    dsimp only
    cases BuildFile.markerName? bytes with
    | none => exact ⟨[_], List.forall_mem_singleton.mpr rfl, rfl⟩
    | some name =>
      dsimp only
      cases Dialect.ofName? name with
      | none => exact ⟨[], List.forall_mem_nil _, by rw [List.map_nil, hnone]⟩
      | some dialect => exact ⟨[_], List.forall_mem_singleton.mpr rfl, rfl⟩

def Parser.choice (p : Parser) (path : Path) (w : World) : Answer Parser :=
  ⟨((p.forBuildFile path).outcome w).1, ((p.forBuildFile path).outcome w).2.since w⟩

namespace Registry

theorem chosenRecord_inj {path : Path} {dialect other : Dialect} :
    chosenRecord path dialect = chosenRecord path other ↔ dialect = other := by
  rw [← Dialect.name_inj]
  simp only [chosenRecord, LogRecord.mk.injEq, true_and, toString, RawText.ofString_inj,
    ← String.toList_inj, String.toList_append, List.append_cancel_left_eq,
    List.append_cancel_right_eq]

variable {d : Dispatcher} {registry : List (Dialect × Parser)}

/-- A dispatcher gives for a build file what its verdict is registered with. -/
theorem choice_verdict (d : Dispatcher) (registry : List (Dialect × Parser)) (path : Path)
    (w : World) : ∃ records : List LogRecord, (∀ record ∈ records, record.source = .detection) ∧
      (Parser.dispatcher d registry).choice path w =
        match w.files.verdict path d.default with
        | .error fault => ⟨.error fault, records.map .logged⟩
        | .ok dialect =>
          match registry.lookup dialect with
          | none => ⟨.error (.unregistered dialect), records.map .logged⟩
          | some parser =>
            ⟨.ok parser, records.map .logged ++ [.logged (chosenRecord path dialect)]⟩ := by
  obtain ⟨records, hsource, hselect⟩ := outcome_selectDialect_verdict path d.default w
  have hsince (events : Trace) : (w.extend events).since w = events := World.since_eq rfl
  have hforward : ((Parser.dispatcher d registry).forBuildFile path).outcome w =
      (choose registry d.default path).outcome w := rfl
  refine ⟨records, hsource, ?_⟩
  unfold Parser.choice
  rw [hforward]
  unfold choose
  rw [outcome_bind, hselect]
  cases w.files.verdict path d.default with
  | error fault => simp only [hsince]
  | ok dialect =>
    dsimp only
    cases registry.lookup dialect with
    | none =>
      dsimp only
      rw [outcome_throw, hsince]
    | some parser =>
      dsimp only
      rw [outcome_bind, World.outcome_log, World.extend_extend]
      dsimp only
      rw [outcome_pure, hsince]
      rfl

end Registry

namespace Dispatcher

open Registry

/-- A dispatcher selects a dialect for a build file: it gives the parser that is registered for the
dialect, and says that it is for that one. -/
def Selects (d : Dispatcher) (registry : List (Dialect × Parser)) (path : Path) (w : World)
    (dialect : Dialect) : Prop :=
  ∃ parser, (dialect, parser) ∈ registry ∧
    ((Parser.dispatcher d registry).choice path w).result = .ok parser ∧
    .logged (chosenRecord path dialect) ∈ ((Parser.dispatcher d registry).choice path w).trace

/-- A dispatcher finds that it has no parser for the dialect of a build file. -/
def Lacks (d : Dispatcher) (registry : List (Dialect × Parser)) (path : Path) (w : World)
    (dialect : Dialect) : Prop :=
  dialect ∉ registry.map Prod.fst ∧
    ((Parser.dispatcher d registry).choice path w).result = .error (.unregistered dialect)

variable {d : Dispatcher} {registry : List (Dialect × Parser)} {path : Path} {w : World}
  {dialect : Dialect}

theorem selects_iff (nodup : (registry.map Prod.fst).Nodup) :
    d.Selects registry path w dialect ↔
      w.files.verdict path d.default = .ok dialect ∧ dialect ∈ registry.map Prod.fst := by
  obtain ⟨records, hsource, hchoice⟩ := choice_verdict d registry path w
  have hnot (other : Dialect) : Event.logged (chosenRecord path other) ∉ records.map .logged := by
    intro hmem
    obtain ⟨record, hrecord, heq⟩ := List.mem_map.mp hmem
    cases heq
    cases hsource _ hrecord
  unfold Selects
  rw [hchoice]
  constructor
  · rintro ⟨parser, hmem, hresult, hlogged⟩
    cases hverdict : w.files.verdict path d.default with
    | error fault =>
      rw [hverdict] at hlogged
      exact absurd hlogged (hnot dialect)
    | ok decided =>
      rw [hverdict] at hlogged
      dsimp only at hlogged
      cases hlookup : registry.lookup decided with
      | none =>
        rw [hlookup] at hlogged
        exact absurd hlogged (hnot dialect)
      | some entry =>
        rw [hlookup] at hlogged
        have hlast := (List.mem_append.mp hlogged).resolve_left (hnot dialect)
        have hsame := chosenRecord_inj.mp (Event.logged.inj (List.mem_singleton.mp hlast))
        exact ⟨by rw [hsame], List.mem_map_of_mem (f := Prod.fst) hmem⟩
  · rintro ⟨hverdict, hmem⟩
    obtain ⟨⟨_, parser⟩, hentry, rfl⟩ := List.mem_map.mp hmem
    refine ⟨parser, hentry, ?_, ?_⟩
    · rw [hverdict]
      dsimp only
      rw [lookup_of_mem nodup hentry]
    · rw [hverdict]
      dsimp only
      rw [lookup_of_mem nodup hentry]
      exact List.mem_append_right _ (List.mem_singleton_self _)

theorem lacks_iff : d.Lacks registry path w dialect ↔
    w.files.verdict path d.default = .ok dialect ∧ dialect ∉ registry.map Prod.fst := by
  obtain ⟨records, -, hchoice⟩ := choice_verdict d registry path w
  unfold Lacks
  rw [hchoice, and_comm]
  refine and_congr_left fun hnone => ?_
  cases hverdict : w.files.verdict path d.default with
  | error fault =>
    obtain ⟨cause, _, rfl⟩ | ⟨name, rfl⟩ := FileTree.verdict_error hverdict <;> simp
  | ok decided =>
    dsimp only
    cases hlookup : registry.lookup decided with
    | none => simp
    | some parser =>
      have hmem : decided ∈ registry.map Prod.fst := List.mem_map_of_mem (mem_of_lookup hlookup)
      have hne : decided ≠ dialect := fun heq => hnone (heq ▸ hmem)
      simp [hne]

/-- What a dispatcher settles on for a build file, whether it has a parser for it or not. -/
theorem settles_iff (nodup : (registry.map Prod.fst).Nodup) :
    d.Selects registry path w dialect ∨ d.Lacks registry path w dialect ↔
      w.files.verdict path d.default = .ok dialect := by
  rw [selects_iff nodup, lacks_iff]
  tauto

/-- Where no two dialects share a parser, the parser alone says which dialect is selected. -/
theorem selects_iff_result (nodup : (registry.map Prod.fst).Nodup)
    (apart : (registry.map Prod.snd).Nodup) : d.Selects registry path w dialect ↔
      ∃ parser, (dialect, parser) ∈ registry ∧
        ((Parser.dispatcher d registry).choice path w).result = .ok parser := by
  constructor
  · rintro ⟨parser, hmem, hresult, -⟩
    exact ⟨parser, hmem, hresult⟩
  · rintro ⟨parser, hmem, hresult⟩
    obtain ⟨records, -, hchoice⟩ := choice_verdict d registry path w
    rw [selects_iff nodup]
    rw [hchoice] at hresult
    cases hverdict : w.files.verdict path d.default with
    | error fault =>
      rw [hverdict] at hresult
      cases hresult
    | ok decided =>
      rw [hverdict] at hresult
      dsimp only at hresult
      cases hlookup : registry.lookup decided with
      | none =>
        rw [hlookup] at hresult
        cases hresult
      | some entry =>
        rw [hlookup] at hresult
        cases hresult
        have hsame := List.inj_on_of_nodup_map apart (mem_of_lookup hlookup) hmem rfl
        cases hsame
        exact ⟨rfl, List.mem_map_of_mem (f := Prod.fst) hmem⟩

end Dispatcher
end BuildDialect
