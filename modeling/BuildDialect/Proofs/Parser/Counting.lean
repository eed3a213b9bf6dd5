import BuildDialect.Proofs.Parser.Frame
import BuildDialect.Proofs.Parser.Verdict
import Mathlib.Algebra.Ring.Int.Defs
import Mathlib.Algebra.Ring.Nat

/-!
What is counted. Whatever bears on a counter is posted, and what has been posted says which value
the counter has. A question to a parser posts the size of the file if it is answered, once, through
however many dispatchers it goes; an operation on a parser posts nothing.
-/
namespace BuildDialect

open Process

inductive Posting where
  /-- A new counter with its initial value. -/
  | opened (counter : String) (value : Int)
  /-- An explicit addition, with what it gave. -/
  | added (counter : String) (delta total : Int)
  /-- The bytes of a file. -/
  | read (counter : String) (size : Nat)
  deriving DecidableEq, Repr

namespace Posting

def delta? (counter : String) : Posting → Option Int
  | .added name delta _ => if name = counter then some delta else none
  | _ => none

def size? (counter : String) : Posting → Option Nat
  | .read name size => if name = counter then some size else none
  | _ => none

/-- What a posting adds to a counter that is there. -/
def amount (counter : String) (posting : Posting) : Int :=
  (posting.delta? counter).getD 0 + ((posting.size? counter).getD 0 : Nat)

theorem amount_opened (counter name : String) (value : Int) :
    (Posting.opened name value).amount counter = 0 := rfl

theorem amount_added (counter name : String) (delta total : Int) :
    (Posting.added name delta total).amount counter = if name = counter then delta else 0 := by
  by_cases h : name = counter <;> simp [amount, delta?, size?, h]

theorem amount_read (counter name : String) (size : Nat) :
    (Posting.read name size).amount counter = if name = counter then (size : Int) else 0 := by
  by_cases h : name = counter <;> simp [amount, delta?, size?, h]

inductive Posted : Posting → Naming Int → Naming Int → Prop
  | opened (counters : Naming Int) (counter : String) (value : Int) :
      Posted (.opened counter value) counters (counters.assign counter value)
  | added {counters : Naming Int} {counter : String} {value : Int}
      (held : counters counter = some value) (delta : Int) :
      Posted (.added counter delta (value + delta)) counters
        (counters.assign counter (value + delta))
  | read {counters : Naming Int} {counter : String} {value : Int}
      (held : counters counter = some value) (size : Nat) :
      Posted (.read counter size) counters (counters.assign counter (value + size))

end Posting

inductive Posts (start : Naming Int) : List Posting → Naming Int → Prop
  | nil : Posts start [] start
  | snoc {postings : List Posting} {posting : Posting} {counters final : Naming Int}
      (before : Posts start postings counters) (step : posting.Posted counters final) :
      Posts start (postings ++ [posting]) final

/-- The value that postings give a counter: its initial value, what was added explicitly since, and
the sizes of the files that were counted since. -/
def Balance (counter : String) (postings : List Posting) (value : Int) : Prop :=
  ∃ before initial since, postings = before ++ .opened counter initial :: since ∧
    (∀ other, .opened counter other ∉ since) ∧
      value = initial + (since.filterMap (Posting.delta? counter)).sum +
        (since.filterMap (Posting.size? counter)).sum

theorem append_cons_eq_concat {α : Type} {front back init : List α} {a last : α}
    (h : front ++ a :: back = init ++ [last]) :
    (front = init ∧ a = last ∧ back = []) ∨
      ∃ middle, back = middle ++ [last] ∧ init = front ++ a :: middle := by
  rcases back.eq_nil_or_concat with rfl | ⟨middle, other, rfl⟩
  · obtain ⟨hinit, hlast⟩ := List.append_inj' h rfl
    cases hlast
    exact Or.inl ⟨hinit, rfl, rfl⟩
  · rw [List.concat_eq_append, ← List.cons_append, ← List.append_assoc] at h
    obtain ⟨hinit, hlast⟩ := List.append_inj' h rfl
    cases hlast
    exact Or.inr ⟨middle, List.concat_eq_append, hinit.symm⟩

namespace Balance

variable {counter : String} {postings : List Posting} {posting : Posting} {value : Int}

theorem not_nil : ¬ Balance counter [] value := by
  rintro ⟨before, initial, since, hpostings, -⟩
  simp at hpostings

/-- A counter that is named again has its new initial value. -/
theorem opened_iff {initial : Int} :
    Balance counter (postings ++ [.opened counter initial]) value ↔ value = initial := by
  constructor
  · rintro ⟨before, earlier, since, hpostings, hlast, hvalue⟩
    rcases append_cons_eq_concat hpostings.symm with ⟨-, hsame, rfl⟩ | ⟨middle, rfl, -⟩
    · cases hsame
      simpa using hvalue
    · exact absurd (by simp) (hlast initial)
  · intro hvalue
    exact ⟨postings, initial, [], rfl, fun _ => List.not_mem_nil, by simpa using hvalue⟩

/-- Any other posting adds to what the counter had. -/
theorem snoc_iff (h : ∀ initial, posting ≠ .opened counter initial) :
    Balance counter (postings ++ [posting]) value ↔
      Balance counter postings (value - posting.amount counter) := by
  have hdeltas (since : List Posting) :
      ((since ++ [posting]).filterMap (Posting.delta? counter)).sum =
        (since.filterMap (Posting.delta? counter)).sum + (posting.delta? counter).getD 0 := by
    cases hdelta : posting.delta? counter <;> simp [hdelta]
  have hsizes (since : List Posting) :
      ((since ++ [posting]).filterMap (Posting.size? counter)).sum =
        (since.filterMap (Posting.size? counter)).sum + (posting.size? counter).getD 0 := by
    cases hsize : posting.size? counter <;> simp [hsize]
  constructor
  · rintro ⟨before, initial, since, hpostings, hlast, hvalue⟩
    -- the last opening of the counter is not the posting at the end, so it stays where it is
    rcases append_cons_eq_concat hpostings.symm with ⟨-, hsame, -⟩ | ⟨middle, rfl, hinit⟩
    · exact absurd hsame.symm (h initial)
    · refine ⟨before, initial, middle, hinit, fun other hmem => ?_, ?_⟩
      · exact hlast other (List.mem_append_left _ hmem)
      · rw [hvalue, hdeltas, hsizes, Posting.amount]
        omega
  · rintro ⟨before, initial, since, rfl, hlast, hvalue⟩
    refine ⟨before, initial, since ++ [posting], by simp, fun other hmem => ?_, ?_⟩
    · rcases List.mem_append.mp hmem with hmem | hmem
      · exact hlast other hmem
      · exact h other (List.mem_singleton.mp hmem).symm
    · rw [hdeltas, hsizes]
      rw [Posting.amount] at hvalue
      omega

end Balance

/-- A counter that is added to has more by what was added, and the others have what they had. -/
theorem Naming.assign_add {counters : Naming Int} {name : String} {held : Int}
    (hheld : counters name = some held) (extra : Int) (counter : String) (value : Int) :
    counters.assign name (held + extra) counter = some value ↔
      counters counter = some (value - if name = counter then extra else 0) := by
  by_cases h : name = counter
  · subst h
    rw [Naming.assign_self, hheld, if_pos rfl, Option.some.injEq, Option.some.injEq]
    omega
  · rw [Naming.assign_of_ne _ _ (Ne.symm h), if_neg h, Int.sub_zero]

theorem Posting.Posted.read_held {counter : String} {size : Nat} {counters final : Naming Int}
    (step : (Posting.read counter size).Posted counters final) :
    ∃ value, counters counter = some value := by
  cases step with
  | read held => exact ⟨_, held⟩

/-- A posting keeps what the counters have in balance with what has been posted. -/
theorem Posting.Posted.balance {posting : Posting} {counters final : Naming Int}
    {postings : List Posting} (step : posting.Posted counters final)
    (before : ∀ counter value, counters counter = some value ↔ Balance counter postings value)
    (counter : String) (value : Int) :
    final counter = some value ↔ Balance counter (postings ++ [posting]) value := by
  cases step with
  | opened _ name initial =>
    by_cases hname : counter = name
    · subst hname
      rw [Naming.assign_self, Balance.opened_iff, Option.some.injEq, eq_comm]
    · have hother : ∀ value, Posting.opened name initial ≠ .opened counter value := by
        intro value h
        cases h
        exact hname rfl
      rw [Naming.assign_of_ne _ _ hname, Balance.snoc_iff hother, ← before, Posting.amount_opened,
        Int.sub_zero]
  | added hheld delta =>
    rw [Balance.snoc_iff (by simp), ← before, Posting.amount_added]
    exact Naming.assign_add hheld delta counter value
  | read hheld size =>
    rw [Balance.snoc_iff (by simp), ← before, Posting.amount_read]
    exact Naming.assign_add hheld size counter value

namespace Posts

variable {start counters final : Naming Int} {postings more : List Posting}

theorem of_eq (h : final = start) : Posts start [] final := h ▸ .nil

theorem single {posting : Posting} (step : posting.Posted start final) :
    Posts start [posting] final :=
  .snoc .nil step

theorem posted {posting : Posting} (h : Posts start [posting] final) :
    posting.Posted start final := by
  generalize hsingle : [posting] = postings at h
  cases h with
  | nil => cases hsingle
  | snoc before step =>
    cases before with
    | nil =>
      cases hsingle
      exact step
    | snoc _ _ => exact absurd (congrArg List.length hsingle) (by simp)

theorem trans (h : Posts start postings counters) (h' : Posts counters more final) :
    Posts start (postings ++ more) final := by
  induction h' with
  | nil =>
    rw [List.append_nil]
    exact h
  | snoc _ step ih =>
    rw [← List.append_assoc]
    exact .snoc ih step

/-- What has been posted gives every counter its value. -/
theorem balance (h : Posts .empty postings final) (counter : String) (value : Int) :
    final counter = some value ↔ Balance counter postings value := by
  induction h generalizing counter value with
  | nil => simp [Naming.empty, Balance.not_nil]
  | snoc _ step ih => exact step.balance ih counter value

/-- An addition gives the value of the counter after it. -/
theorem added_total (h : Posts .empty postings final) {before after : List Posting}
    {counter : String} {delta total : Int}
    (hpostings : postings = before ++ .added counter delta total :: after) :
    Balance counter (before ++ [.added counter delta total]) total := by
  induction h generalizing after with
  | nil => simp at hpostings
  | @snoc earlier posting counters final hbefore step ih =>
    rcases append_cons_eq_concat hpostings.symm with ⟨rfl, rfl, -⟩ | ⟨middle, -, hinit⟩
    · rw [← step.balance hbefore.balance]
      cases step with
      | added hheld delta => exact Naming.assign_self _ _ _
    · exact ih hinit

end Posts

/-- The size of a file in bytes. A path at which nothing can be read has the size zero. -/
def FileTree.size (files : FileTree) (path : Path) : Nat :=
  match files.read path with
  | .ok bytes => bytes.length
  | .error _ => 0

/-- A dispatcher reads a build file to decide about it, and then has chosen an entry or not. -/
theorem Registry.outcome_choose_cases {α : Type} (registry : List (Dialect × α))
    (default : Dialect) (path : Path) (w : World) : ∃ events,
      (∃ fault, (choose registry default path).outcome w = (.error fault, w.extend events)) ∨
        ∃ e ∈ registry, (choose registry default path).outcome w = (.ok e.2, w.extend events) := by
  obtain ⟨records, -, hselect⟩ := outcome_selectDialect_verdict path default w
  unfold choose
  rw [outcome_bind, hselect]
  cases w.files.verdict path default with
  | error fault => exact ⟨_, Or.inl ⟨fault, rfl⟩⟩
  | ok dialect =>
    dsimp only
    cases hlookup : registry.lookup dialect with
    | none => exact ⟨_, Or.inl ⟨_, rfl⟩⟩
    | some entry =>
      refine ⟨records.map .logged ++ [.logged (chosenRecord path dialect)],
        Or.inr ⟨(dialect, entry), mem_of_lookup hlookup, ?_⟩⟩
      dsimp only
      rw [outcome_bind, World.outcome_log, World.extend_extend]
      rfl

namespace Parser

variable (query : Query) (path : Path) (counter : Option String)

/-- What a question posts: the size of the file if it is given a counter and is answered. -/
def postings (p : Parser) (w : World) : List Posting :=
  match counter, (p.response query path counter w).result with
  | some name, .ok _ => [.read name (w.files.size path)]
  | _, _ => []

/-- A dispatcher hands a question on as it is, unless it fails before. -/
theorem outcome_ask_cases (d : Dispatcher) (registry : List (Dialect × Parser)) (w : World) :
    ∃ events,
      (∃ fault, ((dispatcher d registry).ask query path counter).outcome w =
        (.error fault, w.extend events)) ∨
      ∃ e ∈ registry, ((dispatcher d registry).ask query path counter).outcome w =
        (e.2.ask query path counter).outcome (w.extend events) := by
  obtain ⟨events, h⟩ := Registry.outcome_choose_cases
    (registry.map fun e => (e.1, e.2.ask query path counter)) d.default path w
  rw [ask, askEach_eq_map, outcome_bind]
  refine ⟨events, h.imp ?_ ?_⟩
  · rintro ⟨fault, hchoose⟩
    rw [hchoose]
    exact ⟨fault, rfl⟩
  · rintro ⟨action, haction, hchoose⟩
    obtain ⟨e, he, rfl⟩ := List.mem_map.mp haction
    rw [hchoose]
    exact ⟨e, he, rfl⟩

theorem postings_error {p : Parser} {w final : World} {fault : Fault}
    (h : (p.ask query path counter).outcome w = (.error fault, final)) :
    p.postings query path counter w = [] := by
  unfold postings response
  rw [h]
  cases counter <;> rfl

/-- A question that is handed on posts what it posts there. -/
theorem postings_congr {p q : Parser} {w : World} {events : Trace}
    (h : (p.ask query path counter).outcome w =
      (q.ask query path counter).outcome (w.extend events)) :
    p.postings query path counter w = q.postings query path counter (w.extend events) := by
  unfold postings response
  rw [h]
  rfl

end Parser

theorem Action.outcome_count (counter : String) (delta : Int) (w : World) :
    (count counter delta).outcome w =
      match w.counters counter with
      | none => (.error (.unnamed counter), w)
      | some value =>
        (.ok (value + delta),
          { w with counters := w.counters.assign counter (value + delta) }) := by
  unfold count
  rw [outcome_bind, outcome_get]
  dsimp only
  cases w.counters counter <;> rfl

def World.asked (w : World) (d : Delegate) (query : Query) (path : Path)
    (counter : Option String) : World :=
  w.extend [.called (.query d.name query path counter)]

/-- A delegate fails and counts nothing, or answers; if it is given a counter, it then has read the
file and has added its size. -/
theorem Delegate.outcome_ask_cases (d : Delegate) (query : Query) (path : Path)
    (counter : Option String) (w : World) :
    (∃ fault, (d.ask query path counter).outcome w =
      (.error fault, w.asked d query path counter)) ∨
    (counter = none ∧ ∃ rules, (d.ask query path counter).outcome w =
      (.ok rules, w.asked d query path counter)) ∨
    ∃ name bytes value, counter = some name ∧ w.files.read path = .ok bytes ∧
      w.counters name = some value ∧ ∃ rules, (d.ask query path counter).outcome w =
        (.ok rules, { w.asked d query path counter with
          counters := w.counters.assign name (value + bytes.length) }) := by
  unfold ask
  rw [outcome_bind, Action.outcome_emit]
  dsimp only
  rw [outcome_bind, outcome_get]
  dsimp only
  split
  · exact Or.inl ⟨_, rfl⟩
  · cases counter with
    | none =>
      refine Or.inr (Or.inl ⟨rfl, ?_⟩)
      cases query <;> exact ⟨_, rfl⟩
    | some name =>
      dsimp only
      rw [outcome_bind, Action.outcome_ask]
      dsimp only
      cases hread : w.files.read path with
      | error cause => exact Or.inl ⟨_, rfl⟩
      | ok bytes =>
        dsimp only [Except.mapError]
        rw [outcome_bind, Action.outcome_count]
        dsimp only
        cases hheld : w.counters name with
        | none => exact Or.inl ⟨_, rfl⟩
        | some value =>
          refine Or.inr (Or.inr ⟨name, bytes, value, rfl, rfl, hheld, ?_⟩)
          cases query <;> exact ⟨_, rfl⟩

/-- A question to a delegate counts the file if it is given a counter and does not fail. -/
theorem Delegate.ask_posts (d : Delegate) (query : Query) (path : Path) (counter : Option String)
    (w : World) : Posts w.counters ((Parser.delegate d).postings query path counter w)
      ((d.ask query path counter).outcome w).2.counters := by
  have hask : (Parser.delegate d).ask query path counter = d.ask query path counter := rfl
  obtain ⟨fault, h⟩ | ⟨rfl, rules, h⟩ | ⟨name, bytes, value, rfl, hread, hheld, rules, h⟩ :=
    d.outcome_ask_cases query path counter w
  · rw [Parser.postings_error query path counter (hask ▸ h), h]
    exact .nil
  · rw [h]
    exact .nil
  · have hpostings : (Parser.delegate d).postings query path (some name) w =
        [.read name bytes.length] := by
      unfold Parser.postings Parser.response FileTree.size
      rw [hask, h, hread]
    rw [hpostings, h]
    exact .single (.read hheld bytes.length)

/-- A question to a parser counts the file once if it is answered, through however many dispatchers
it goes, and otherwise nothing. -/
theorem Parser.ask_posts (p : Parser) (query : Query) (path : Path) (counter : Option String)
    (w : World) : Posts w.counters (p.postings query path counter w)
      ((p.ask query path counter).outcome w).2.counters := by
  -- on the tree; the worlds on the way down differ in their records only, not in the file
  induction p generalizing w with
  | delegate d => exact d.ask_posts query path counter w
  | dispatcher d registry ih =>
    obtain ⟨events, ⟨fault, hask⟩ | ⟨e, he, hask⟩⟩ :=
      outcome_ask_cases query path counter d registry w
    · rw [postings_error query path counter hask, hask]
      exact .nil
    · rw [postings_congr query path counter hask, hask]
      exact ih e he (w.extend events)

/-- A question that is given a counter that is not there is not answered. -/
theorem Parser.postings_missing (p : Parser) (query : Query) (path : Path) {counter : String}
    {w : World} (missing : w.counters counter = none) :
    p.postings query path (some counter) w = [] := by
  have hposts := p.ask_posts query path (some counter) w
  unfold postings at hposts ⊢
  cases hresult : (p.response query path (some counter) w).result with
  | error fault => rfl
  | ok rules =>
    rw [hresult] at hposts
    obtain ⟨value, held⟩ := hposts.posted.read_held
    rw [missing] at held
    cases held

/-- An operation on a parser counts nothing. -/
theorem Parser.perform_counters (p : Parser) (operation : Lifecycle) (w : World) :
    ((p.perform operation).outcome w).2.counters = w.counters := by
  refine p.perform_steps (R := fun a b => b.counters = a.counters) ?_ w
  exact {
    refl := fun _ => rfl
    trans := fun h h' => h'.trans h
    called := fun _ _ => rfl
    logged := fun _ _ _ => rfl
    visited := fun number _ errand w => by
      unfold Errand.after
      dsimp only
      split_ifs <;> rfl }

end BuildDialect
