import BuildDialect.Proofs.Actions
import BuildDialect.Proofs.Detection
import BuildDialect.Session.Reply

/-!
Where a question about a build file ends up in a tree of parsers. What the file asks for is the
same at every dispatcher on the way, since questions change no file; only the default that stands
in for it is each one's own.
-/
namespace BuildDialect

open Process

def Parser.response (p : Parser) (query : Query) (path : Path) (counter : Option String)
    (w : World) : Answer (List Rule) :=
  ⟨((p.ask query path counter).outcome w).1, ((p.ask query path counter).outcome w).2.since w⟩

def Registry.chosenRecord (path : Path) (dialect : Dialect) : LogRecord :=
  ⟨.debug, .dispatch, s!"Selected syntax {dialect.name} for " ++ path.text⟩

variable {w : World} {path : Path} {bytes : List UInt8} {asked : Option Dialect}

namespace Registry

variable {α : Type} {registry : List (Dialect × α)} {default : Dialect}

theorem outcome_choose_undecided {fault : Fault}
    (h : (selectDialect path default).outcome w = (.error fault, w)) :
    (choose registry default path).outcome w = (.error fault, w) := by
  unfold choose
  rw [outcome_bind, h]

theorem outcome_choose_mem (readable : w.files.read path = .ok bytes)
    (hasked : BuildFile.markerName? bytes = asked.map Dialect.name)
    (nodup : (registry.map Prod.fst).Nodup) {entry : α}
    (h : (asked.getD default, entry) ∈ registry) :
    ∃ records : List LogRecord, (choose registry default path).outcome w =
      (.ok entry, w.extend (records.map .logged)) := by
  obtain ⟨record, hselect⟩ := outcome_selectDialect_asked readable hasked default
  refine ⟨[record, chosenRecord path (asked.getD default)], ?_⟩
  have hlookup : registry.lookup (asked.getD default) = some entry := lookup_of_mem nodup h
  unfold choose
  rw [outcome_bind, hselect]
  dsimp only
  rw [hlookup, outcome_bind, World.outcome_log, World.extend_extend]
  rfl

theorem outcome_choose_not_mem (readable : w.files.read path = .ok bytes)
    (hasked : BuildFile.markerName? bytes = asked.map Dialect.name)
    (h : asked.getD default ∉ registry.map Prod.fst) :
    ∃ record, (choose registry default path).outcome w =
      (.error (.unregistered (asked.getD default)), w.extend [.logged record]) := by
  obtain ⟨record, hselect⟩ := outcome_selectDialect_asked readable hasked default
  refine ⟨record, ?_⟩
  have hlookup : registry.lookup (asked.getD default) = none := by
    rw [List.lookup_eq_none_iff]
    rintro e he
    rw [bne_iff_ne]
    exact fun heq => h (heq ▸ List.mem_map_of_mem he)
  unfold choose
  rw [outcome_bind, hselect]
  dsimp only
  rw [hlookup]
  rfl

end Registry

theorem Delegate.trace_ask (d : Delegate) (query : Query) (path : Path) (counter : Option String)
    (w : World) : ((d.ask query path counter).outcome w).2.trace =
      w.trace ++ [.called (.query d.name query path counter)] := by
  set I : World → Prop := fun w' =>
    w'.trace = w.trace ++ [.called (.query d.name query path counter)]
  have hgiven (rules : List Rule) : Keeps I (pure rules : Action (List Rule)) fun _ => True :=
    .pure True.intro
  have hcount (name : String) (delta : Int) : Keeps I (Action.count name delta) fun _ => True := by
    refine .bind .get fun w' _ => ?_
    cases w'.counters name with
    | none => exact .throw _
    | some value => exact .bind (.modify fun _ => id) fun _ _ => .pure True.intro
  have hafter {action : Action (List Rule)} (h : Keeps I action fun _ => True) (w' : World)
      (hw : I w') : I (action.outcome w').2 := (h w' hw).1
  unfold Delegate.ask
  refine bind_after (R := I) rfl fun _ => hafter (.bind .get fun w' _ => ?_) _ rfl
  split
  · exact .throw _
  · cases counter with
    | none => cases query <;> exact hgiven _
    | some name =>
      refine .bind (Action.keeps_ask _ _) fun _ _ => .bind (hcount _ _) fun _ _ => ?_
      cases query <;> exact hgiven _

namespace Parser

/-- The parsers that a question comes to: at each dispatcher it goes to the entry of the dialect
that is asked for, or of the default of that dispatcher. -/
inductive Reaches (asked : Option Dialect) : Parser → Parser → Prop
  | here (p : Parser) : Reaches asked p p
  | part {d : Dispatcher} {registry : List (Dialect × Parser)} {p q : Parser}
      (entry : (asked.getD d.default, p) ∈ registry) (next : Reaches asked p q) :
      Reaches asked (.dispatcher d registry) q

/-- A question comes to a dispatcher that has no entry for it. -/
def Stuck (asked : Option Dialect) (p : Parser) : Prop :=
  ∃ d registry, Reaches asked p (.dispatcher d registry) ∧
    asked.getD d.default ∉ registry.map Prod.fst

variable {p q : Parser} {d : Dispatcher} {registry : List (Dialect × Parser)}

theorem Reaches.built (h : Reaches asked p q) (built : p.Built) : q.Built := by
  induction h with
  | here p => exact built
  | part entry next ih => exact ih (built.part entry)

theorem reaches_cases (asked : Option Dialect) (p : Parser) :
    (∃ leaf, Reaches asked p (.delegate leaf)) ∨ Stuck asked p := by
  induction p with
  | delegate leaf => exact Or.inl ⟨leaf, .here _⟩
  | dispatcher d registry ih =>
    by_cases h : asked.getD d.default ∈ registry.map Prod.fst
    · obtain ⟨⟨dialect, p⟩, he, rfl⟩ := List.mem_map.mp h
      rcases ih _ he with ⟨leaf, hleaf⟩ | ⟨d', registry', hstuck, hnone⟩
      · exact Or.inl ⟨leaf, .part he hleaf⟩
      · exact Or.inr ⟨d', registry', .part he hstuck, hnone⟩
    · exact Or.inr ⟨d, registry, .here _, h⟩

/-- A default is registered, so a question that asks for nothing comes to a delegate. -/
theorem Built.not_stuck (built : p.Built) : ¬ Stuck none p := by
  rintro ⟨d, registry, hreaches, hnone⟩
  exact hnone (hreaches.built built).default_mem

variable (query : Query) (counter : Option String)

theorem outcome_ask_part (built : (dispatcher d registry).Built)
    (readable : w.files.read path = .ok bytes)
    (hasked : BuildFile.markerName? bytes = asked.map Dialect.name)
    (entry : (asked.getD d.default, p) ∈ registry) :
    ∃ records : List LogRecord, ((dispatcher d registry).ask query path counter).outcome w =
      (p.ask query path counter).outcome (w.extend (records.map .logged)) := by
  have nodup : ((registry.map fun e => (e.1, e.2.ask query path counter)).map Prod.fst).Nodup := by
    rw [List.map_map]
    exact built.nodup
  obtain ⟨records, hchoose⟩ := Registry.outcome_choose_mem readable hasked nodup
    (List.mem_map_of_mem (f := fun e => (e.1, e.2.ask query path counter)) entry)
  refine ⟨records, ?_⟩
  rw [ask, askEach_eq_map, outcome_bind, hchoose]

/-- What a question comes to at the root is what it comes to wherever it is handed on to. -/
theorem outcome_ask_reaches (h : Reaches asked p q) (built : p.Built)
    (readable : w.files.read path = .ok bytes)
    (hasked : BuildFile.markerName? bytes = asked.map Dialect.name) :
    ∃ records : List LogRecord, (p.ask query path counter).outcome w =
      (q.ask query path counter).outcome (w.extend (records.map .logged)) := by
  induction h generalizing w with
  | here p =>
    refine ⟨[], ?_⟩
    rw [List.map_nil, World.extend, List.append_nil]
  | part entry next ih =>
    -- only records are added on the way, so the file is still as readable
    obtain ⟨first, hfirst⟩ := outcome_ask_part query counter built readable hasked entry
    obtain ⟨rest, hrest⟩ := ih (w := w.extend (first.map .logged)) (built.part entry) readable
    refine ⟨first ++ rest, ?_⟩
    rw [hfirst, hrest, World.extend_extend, List.map_append]

theorem outcome_ask_lacking (readable : w.files.read path = .ok bytes)
    (hasked : BuildFile.markerName? bytes = asked.map Dialect.name)
    (h : asked.getD d.default ∉ registry.map Prod.fst) :
    ∃ record, ((dispatcher d registry).ask query path counter).outcome w =
      (.error (.unregistered (asked.getD d.default)), w.extend [.logged record]) := by
  have hmap : asked.getD d.default ∉
      (registry.map fun e => (e.1, e.2.ask query path counter)).map Prod.fst := by
    rw [List.map_map]
    exact h
  obtain ⟨record, hchoose⟩ := Registry.outcome_choose_not_mem readable hasked hmap
  refine ⟨record, ?_⟩
  rw [ask, askEach_eq_map, outcome_bind, hchoose]

theorem response_undecided {fault : Fault}
    (h : (selectDialect path d.default).outcome w = (.error fault, w)) :
    (dispatcher d registry).response query path counter w = ⟨.error fault, []⟩ := by
  have hask : ((dispatcher d registry).ask query path counter).outcome w = (.error fault, w) := by
    rw [ask, outcome_bind, Registry.outcome_choose_undecided h]
  have hsince : w.since w = [] := World.since_eq (List.append_nil _).symm
  rw [response, hask, hsince]

theorem calls_response_reaches {leaf : Delegate} (h : Reaches asked p (.delegate leaf))
    (built : p.Built) (readable : w.files.read path = .ok bytes)
    (hasked : BuildFile.markerName? bytes = asked.map Dialect.name) :
    (p.response query path counter w).trace.calls = [.query leaf.name query path counter] := by
  obtain ⟨records, hask⟩ := outcome_ask_reaches query counter h built readable hasked
  have htrace : ((p.ask query path counter).outcome w).2.trace =
      w.trace ++ (records.map .logged ++ [.called (.query leaf.name query path counter)]) := by
    rw [hask, ask, Delegate.trace_ask, World.extend_trace, List.append_assoc]
  rw [response, World.since_eq htrace, Trace.calls_append, Trace.calls_logged]
  rfl

theorem response_stuck {dialect : Dialect} (h : Stuck (some dialect) p) (built : p.Built)
    (readable : w.files.read path = .ok bytes)
    (hmarker : BuildFile.markerName? bytes = some dialect.name) :
    (p.response query path counter w).result = .error (.unregistered dialect) ∧
      (p.response query path counter w).trace.calls = [] := by
  obtain ⟨d, registry, hreaches, hnone⟩ := h
  have hasked : BuildFile.markerName? bytes = (some dialect).map Dialect.name := hmarker
  obtain ⟨records, hask⟩ := outcome_ask_reaches query counter hreaches built readable hasked
  obtain ⟨last, hlast⟩ := outcome_ask_lacking query counter
    (w := w.extend (records.map .logged)) readable hasked hnone
  rw [hlast, World.extend_extend] at hask
  have hsince : (w.extend (records.map .logged ++ [.logged last])).since w =
      records.map .logged ++ [.logged last] := World.since_eq rfl
  rw [response, hask, hsince, Trace.calls_append, Trace.calls_logged]
  exact ⟨rfl, rfl⟩

structure Routed (query : Query) (path : Path) (counter : Option String) (p : Parser)
    (w : World) : Prop where
  unreadable : ∀ cause, w.files.read path = .error cause →
    p.response query path counter w = ⟨.error (.file ⟨cause, path⟩), []⟩
  unknown : ∀ bytes name, w.files.read path = .ok bytes →
    BuildFile.markerName? bytes = some name → (∀ d : Dialect, name ≠ d.name) →
    p.response query path counter w = ⟨.error (.unrecognized path name), []⟩
  /-- A marker leads to a delegate unless some dispatcher on the way has no entry for it. -/
  marked : ∀ bytes dialect, w.files.read path = .ok bytes →
    BuildFile.markerName? bytes = some dialect.name →
    ((p.response query path counter w).result = .error (.unregistered dialect) ∧
        (p.response query path counter w).trace.calls = [] ↔ Stuck (some dialect) p) ∧
      (¬ Stuck (some dialect) p → ∃ leaf, Reaches (some dialect) p (.delegate leaf))
  unmarked : ∃ leaf, Reaches none p (.delegate leaf)
  /-- The delegate is asked the same question, and what it answers is the answer. -/
  answered : ∀ bytes asked leaf, w.files.read path = .ok bytes →
    BuildFile.markerName? bytes = asked.map Dialect.name → Reaches asked p (.delegate leaf) →
    (p.response query path counter w).trace.calls = [.query leaf.name query path counter] ∧
      ∃ records : List LogRecord, (p.ask query path counter).outcome w =
        (leaf.ask query path counter).outcome (w.extend (records.map .logged))

/-- Where a question to a dispatcher ends up, and with what. -/
theorem ask_routed (built : (dispatcher d registry).Built) (query : Query) (path : Path)
    (counter : Option String) (w : World) :
    Routed query path counter (dispatcher d registry) w := by
  refine ⟨?_, ?_, ?_, ?_, ?_⟩
  · intro cause unreadable
    exact response_undecided query counter (outcome_selectDialect_unreadable unreadable d.default)
  · intro bytes name readable hname hunknown
    exact response_undecided query counter
      (outcome_selectDialect_unknown readable hname hunknown d.default)
  · intro bytes dialect readable hmarker
    have hcases := reaches_cases (some dialect) (dispatcher d registry)
    refine ⟨⟨fun h => ?_, fun h => response_stuck query counter h built readable hmarker⟩,
      hcases.resolve_right⟩
    rcases hcases with ⟨leaf, hleaf⟩ | hstuck
    · have hcalls := calls_response_reaches query counter hleaf built readable hmarker
      rw [h.2] at hcalls
      cases hcalls
    · exact hstuck
  · exact (reaches_cases none (dispatcher d registry)).resolve_right built.not_stuck
  · intro bytes asked leaf readable hasked hreaches
    exact ⟨calls_response_reaches query counter hreaches built readable hasked,
      outcome_ask_reaches query counter hreaches built readable hasked⟩

def Sample.asking : World :=
  { World.fresh with
    files := FileTree.fresh.put (FileTree.locate ["work", "home", "BUCK"])
      (.file (BuildFile.markerBytes ++ Utf8.ascii Dialect.pythonDsl.name.toList)) }

theorem ask_routed_sample : (dispatcher Sample.outer Sample.parts).Built ∧
    Routed .rules ⟨"BUCK"⟩ none (dispatcher Sample.outer Sample.parts) Sample.asking ∧
    ((dispatcher Sample.outer Sample.parts).response .rules ⟨"BUCK"⟩ none
      Sample.asking).trace.calls = [.query "b" .rules ⟨"BUCK"⟩ none] :=
  ⟨Sample.built, ask_routed Sample.built .rules ⟨"BUCK"⟩ none Sample.asking, by rfl⟩

end Parser
end BuildDialect
