import BuildDialect.Proofs.Parser.Counting
import BuildDialect.Proofs.Session.Closings
import BuildDialect.Proofs.Session.Safety

/-!
What is counted in a session. Every command posts what bears on a counter, in the order in which it
happens, and nothing else changes a counter: so each counter has its initial value, and to it what
was added and the sizes of the files that were asked about with it.
-/
namespace BuildDialect

open Process

namespace Turn

theorem outcome_held (name : String) (s : Session) :
    (parser name).outcome s =
      match s.parsers name with
      | none => (.error (.unnamed name), s)
      | some p => (.ok p, s) := by
  rw [parser, outcome_bind, outcome_get]
  dsimp only
  cases s.parsers name <;> rfl

theorem outcome_counter (name : String) (s : Session) :
    (counter name).outcome s =
      match s.world.counters name with
      | none => (.error (.unnamed name), s)
      | some value => (.ok value, s) := by
  rw [counter, outcome_bind, outcome_get]
  dsimp only
  cases s.world.counters name <;> rfl

theorem outcome_number (result : Except CountFault Int) (s : Session) :
    (number result).outcome s = (result.mapError .count, s) := by
  cases result <;> rfl

end Turn

namespace Command

mutual

/-- What a command posts: a new counter, an addition to one that is there, what a question posts,
and what the commands in a block post. -/
def postings (s : Session) : Command → List Posting
  | .counter name value =>
    match Count.read value with
    | .ok value => [.opened name value]
    | .error _ => []
  | .add name delta =>
    match Count.read delta with
    | .error _ => []
    | .ok delta =>
      match ((Action.count name delta).outcome s.world).1 with
      | .ok total => [.added name delta total]
      | .error _ => []
  | .ask name query path counted =>
    match s.parsers name with
    | some p => p.postings query path counted s.world
    | none => []
  | .block name body _ =>
    match s.parsers name with
    | some _ => postingsOf s body
    | none => []
  | _ => []

def postingsOf (s : Session) : List Command → List Posting
  | [] => []
  | command :: rest =>
    command.postings s ++
      match command.run.outcome s with
      | (.ok _, after) => postingsOf after rest
      | (.error _, _) => []

end

variable {s : Session}

theorem counter_posts (name : String) (value : Numeral) :
    Posts s.world.counters ((Command.counter name value).postings s)
      ((Command.counter name value).run.outcome s).2.world.counters := by
  rw [postings, run]
  cases Count.read value with
  | error fault => exact .nil
  | ok value => exact .single (.opened _ name value)

/-- An addition to a counter that is there is made, whether or not the sum can be written. -/
theorem outcome_add {name : String} {numeral : Numeral} {value delta : Int}
    (held : s.world.counters name = some value) (readable : Count.read numeral = .ok delta) :
    (Command.add name numeral).run.outcome s =
      ((Count.writable (value + delta)).mapError .count |>.map fun total =>
        .sum total (value + delta),
        { s with world := { s.world with
          counters := s.world.counters.assign name (value + delta) } }) := by
  rw [run, outcome_bind, Turn.outcome_counter, held]
  dsimp only
  rw [outcome_bind, Turn.outcome_number, readable]
  dsimp only [Except.mapError]
  rw [outcome_bind, Turn.outcome_act, Action.outcome_count, held]
  dsimp only
  rw [outcome_bind, Turn.outcome_number]
  cases Count.writable (value + delta) with
  | error fault => rfl
  | ok total =>
    dsimp only [Except.mapError]
    rw [outcome_bind, Turn.outcome_counter]
    dsimp only
    rw [Naming.assign_self]
    rfl

theorem add_posts (name : String) (numeral : Numeral) :
    Posts s.world.counters ((Command.add name numeral).postings s)
      ((Command.add name numeral).run.outcome s).2.world.counters := by
  cases held : s.world.counters name with
  | none =>
    have hpostings : (Command.add name numeral).postings s = [] := by
      rw [postings]
      cases Count.read numeral with
      | error fault => rfl
      | ok delta =>
        dsimp only
        rw [Action.outcome_count, held]
    rw [hpostings, run, outcome_bind, Turn.outcome_counter, held]
    exact .nil
  | some value =>
    cases readable : Count.read numeral with
    | error fault =>
      rw [postings, readable, run, outcome_bind, Turn.outcome_counter, held]
      dsimp only
      rw [outcome_bind, Turn.outcome_number, readable]
      exact .nil
    | ok delta =>
      rw [outcome_add held readable, postings, readable]
      dsimp only
      rw [Action.outcome_count, held]
      exact .single (.added held delta)

theorem ask_posts (name : String) (query : Query) (path : Path) (counted : Option String) :
    Posts s.world.counters ((Command.ask name query path counted).postings s)
      ((Command.ask name query path counted).run.outcome s).2.world.counters := by
  rw [postings, run, Turn.ask, outcome_bind, Turn.outcome_held]
  cases s.parsers name with
  | none => exact .nil
  | some p =>
    dsimp only
    have hposts : Posts s.world.counters (p.postings query path counted s.world)
        ((Turn.act (p.ask query path counted)).outcome s).2.world.counters :=
      p.ask_posts query path counted s.world
    set J : Session → Prop := fun t =>
      Posts s.world.counters (p.postings query path counted s.world) t.world.counters
    cases counted with
    | none => exact bind_after (R := J) hposts fun _ => hposts
    | some counter =>
      dsimp only
      rw [outcome_bind, Turn.outcome_counter]
      cases held : s.world.counters counter with
      | none =>
        -- the counter is looked up first, so the parser is not even asked
        rw [p.postings_missing query path held]
        exact .nil
      | some value =>
        dsimp only
        refine bind_after (R := J) hposts fun rules => ?_
        have hread : Keeps J (do
            let value ← Turn.number (Count.writable (← Turn.counter counter))
            return Reply.rules rules (some value)) fun _ => True :=
          .bind (Turn.keeps_counter counter) fun _ _ => .bind (Turn.keeps_number _) fun _ _ =>
            .pure True.intro
        exact (hread _ hposts).1

theorem postings_still {command : Command}
    (plain : ∀ name body ending, command ≠ .block name body ending)
    (still : ¬ command.isCounting) : command.postings s = [] := by
  cases command with
  | counter name value => exact absurd rfl still
  | add name delta => exact absurd rfl still
  | ask name query path counted => exact absurd rfl still
  | block name body ending => exact absurd rfl (plain name body ending)
  | _ => rw [postings] <;> simp

/-- A command that is not about a counter leaves all counters as they are. -/
theorem still_counters {command : Command}
    (plain : ∀ name body ending, command ≠ .block name body ending)
    (still : ¬ command.isCounting) :
    (command.run.outcome s).2.world.counters = s.world.counters := by
  set I : World → Prop := fun w => w.counters = s.world.counters
  have hI : Steady I := ⟨fun _ _ _ => id, fun _ _ => id, fun _ _ => id⟩
  by_cases quiet : command.isQuiet
  · exact (keeps_run_still hI.session command quiet still s rfl).1
  · have hperform (p : Parser) (operation : Lifecycle) :
        Keeps I (p.perform operation) fun _ => True :=
      fun w hw => ⟨(p.perform_counters operation w).trans hw, fun _ _ => True.intro⟩
    exact busy_in (Q := fun _ => True) (fun p _ => hperform p .close)
      (fun p => hperform p .reportProfile) hI plain quiet rfl fun _ _ => True.intro

theorem plain_posts {command : Command}
    (plain : ∀ name body ending, command ≠ .block name body ending) :
    Posts s.world.counters (command.postings s) (command.run.outcome s).2.world.counters := by
  by_cases counting : command.isCounting
  · cases command with
    | counter name value => exact counter_posts name value
    | add name delta => exact add_posts name delta
    | ask name query path counted => exact ask_posts name query path counted
    | _ => cases counting
  · rw [postings_still plain counting]
    exact .of_eq (still_counters plain counting)

theorem shown_result (command : Command) (answer : Answer Reply) :
    (command.shown answer).result = answer.result := by
  cases command <;> rfl

theorem runBody_cons (command : Command) (rest : List Command) (s : Session) :
    ((runBody (command :: rest)).outcome s).2 =
      match command.run.outcome s with
      | (.ok _, after) => ((runBody rest).outcome after).2
      | (.error _, after) => after := by
  have hanswer : (Turn.answer command.run).outcome s =
      (.ok ⟨(command.run.outcome s).1,
        (command.run.outcome s).2.world.trace.drop s.world.trace.length⟩,
        (command.run.outcome s).2) := rfl
  rw [runBody, outcome_bind, hanswer]
  dsimp only
  rw [shown_result]
  rcases command.run.outcome s with ⟨fault | reply, after⟩
  · rfl
  · dsimp only
    rw [outcome_bind]
    rcases (runBody rest).outcome after with ⟨fault | ⟨answers, failed⟩, final⟩ <;> rfl

theorem body_posts {body : List Command}
    (each : ∀ command ∈ body, ∀ s : Session,
      Posts s.world.counters (command.postings s) (command.run.outcome s).2.world.counters)
    (s : Session) :
    Posts s.world.counters (postingsOf s body) ((runBody body).outcome s).2.world.counters := by
  induction body generalizing s with
  | nil => exact .nil
  | cons command rest ih =>
    have hfirst := each command List.mem_cons_self s
    have hrest := ih fun command hc => each command (List.mem_cons_of_mem _ hc)
    rw [postingsOf, runBody_cons]
    rcases hrun : command.run.outcome s with ⟨fault | reply, after⟩
    · rw [hrun] at hfirst
      exact hfirst.trans .nil
    · rw [hrun] at hfirst
      exact hfirst.trans (hrest after)

/-- A command does to the counters what it posts, and nothing else. -/
theorem run_posts (command : Command) (s : Session) :
    Posts s.world.counters (command.postings s) (command.run.outcome s).2.world.counters := by
  induction command using Command.induction generalizing s with
  | plain command plain => exact plain_posts plain
  | block name body ending each =>
    have hbody := body_posts each s
    rw [postings, run, outcome_bind, Turn.outcome_held]
    cases s.parsers name with
    | none => exact .nil
    | some p =>
      -- however the body ends, the close after it leaves the counters alone
      set I : World → Prop := fun w => Posts s.world.counters (postingsOf s body) w.counters
      have hclose : Keeps I (p.perform .close) fun _ => True := by
        refine fun w hw => ⟨?_, fun _ _ => True.intro⟩
        show Posts _ _ ((p.perform .close).outcome w).2.counters
        rw [p.perform_counters]
        exact hw
      have hleft := (Turn.keeps_act_in hclose.attempt _ hbody).1
      exact bind_after (R := Session.In I) hbody fun _ =>
        bind_after (R := Session.In I) hleft fun _ => hleft

/-- The reply to an addition says what the counter has after it. -/
theorem add_reply {name : String} {numeral : Numeral} {total value : Int}
    (h : ((Command.add name numeral).run.outcome s).1 = .ok (.sum total value)) :
    total = value ∧
      ((Command.add name numeral).run.outcome s).2.world.counters name = some total := by
  cases held : s.world.counters name with
  | none =>
    rw [run, outcome_bind, Turn.outcome_counter, held] at h
    cases h
  | some before =>
    cases readable : Count.read numeral with
    | error fault =>
      rw [run, outcome_bind, Turn.outcome_counter, held] at h
      dsimp only at h
      rw [outcome_bind, Turn.outcome_number, readable] at h
      cases h
    | ok delta =>
      rw [outcome_add held readable] at h ⊢
      have hsum : total = before + delta ∧ before + delta = value := by
        unfold Count.writable at h
        split_ifs at h
        · cases h
          exact ⟨rfl, rfl⟩
        · cases h
      refine ⟨hsum.1.trans hsum.2, ?_⟩
      rw [hsum.1]
      exact Naming.assign_self _ _ _

end Command

namespace Session

def postings (s : Session) : List Command → List Posting
  | [] => []
  | command :: rest => command.postings s ++ (s.perform command).2.postings rest

/-- A session leads to another, and this is what is posted on the way. -/
inductive Course : Session → List Posting → Session → Prop
  | refl (s : Session) : Course s [] s
  | perform {s t : Session} {postings : List Posting} (before : Course s postings t)
      (command : Command) : Course s (postings ++ command.postings t) (t.perform command).2
  | rescript {s t : Session} {postings : List Posting} (before : Course s postings t)
      (script : Script) : Course s postings (t.rescript script)
  | leave {s t u : Session} {postings inner : List Posting} {name : String} {p : Parser}
      (before : Course s postings t) (entered : t.parsers name = some p)
      (inside : Course t inner u) : Course s (postings ++ inner) (u.close p)

/-- The counters have what was posted to them, and every addition gave what its counter then had. -/
structure Accounted (postings : List Posting) (s : Session) : Prop where
  value : ∀ counter value,
    s.world.counters counter = some value ↔ Balance counter postings value
  total : ∀ before counter delta total after,
    postings = before ++ .added counter delta total :: after →
      Balance counter (before ++ [.added counter delta total]) total
  reply : ∀ counter numeral total value,
    (s.perform (.add counter numeral)).1.result = .ok (.sum total value) →
      total = value ∧ (s.perform (.add counter numeral)).2.world.counters counter = some total

variable {s t u : Session} {postings more : List Posting}

/-- Wherever a session leads, something has been posted on the way. -/
theorem leads_iff_course : s.Leads t ↔ ∃ postings, s.Course postings t := by
  constructor
  · intro h
    induction h with
    | refl s => exact ⟨_, .refl s⟩
    | perform before command ih => exact ⟨_, .perform ih.choose_spec command⟩
    | rescript before script ih => exact ⟨_, .rescript ih.choose_spec script⟩
    | leave before entered inside ih ih' =>
      exact ⟨_, .leave ih.choose_spec entered ih'.choose_spec⟩
  · rintro ⟨postings, h⟩
    induction h with
    | refl s => exact .refl s
    | perform before command ih => exact .perform ih command
    | rescript before script ih => exact .rescript ih script
    | leave before entered inside ih ih' => exact .leave ih entered ih'

namespace Course

theorem trans (h : s.Course postings t) (h' : t.Course more u) : s.Course (postings ++ more) u := by
  induction h' with
  | refl t =>
    rw [List.append_nil]
    exact h
  | perform before command ih =>
    rw [← List.append_assoc]
    exact .perform (ih h) command
  | rescript before script ih => exact .rescript (ih h) script
  | leave before entered inside ih _ =>
    rw [← List.append_assoc]
    exact .leave (ih h) entered inside

theorem run (s : Session) (commands : List Command) :
    s.Course (s.postings commands) (s.run commands).2 := by
  induction commands generalizing s with
  | nil => exact .refl s
  | cons command rest ih => exact (Course.perform (.refl s) command).trans (ih _)

/-- What is posted is what becomes of the counters. -/
theorem posts (h : s.Course postings t) : Posts s.world.counters postings t.world.counters := by
  induction h with
  | refl s => exact .nil
  | perform before command ih => exact ih.trans (command.run_posts _)
  | rescript before script ih => exact ih
  | @leave s t u postings inner name p before entered inside ih ih' =>
    have hclose : (u.close p).world.counters = u.world.counters :=
      p.perform_counters .close u.world
    rw [hclose]
    exact ih.trans ih'

/-- Whatever a session leads to, the counters have what was posted to them: the initial value, what
was added, and the size of the file for every question that was answered. -/
theorem accounted (h : Session.fresh.Course postings s) : Accounted postings s := by
  refine ⟨h.posts.balance, ?_, ?_⟩
  · intro before counter delta total after hpostings
    exact h.posts.added_total hpostings
  · intro counter numeral total value hreply
    exact Command.add_reply hreply

end Course

def Sample.counting : List Command :=
  [.counter "c" ⟨-3, 1⟩, .counter "d" ⟨10, 2⟩, .delegate ⟨"a", "a", [], [], []⟩,
    .dispatcher "inner" [⟨.dialect .pythonDsl, "a"⟩] .pythonDsl,
    .dispatcher "outer" [⟨.dialect .skylark, "inner"⟩] .skylark,
    .write ⟨"BUCK"⟩ [0x61, 0x0A], .ask "outer" .rules ⟨"BUCK"⟩ (some "c"), .add "c" ⟨5, 1⟩,
    .block "outer" [.ask "a" .rulesAndMeta ⟨"BUCK"⟩ (some "d"), .add "d" ⟨-20, 2⟩,
      .ask "outer" .rules ⟨"TARGETS"⟩ (some "c"), .add "c" ⟨100, 3⟩] none]

def Sample.posted : List Posting :=
  [.opened "c" (-3), .opened "d" 10, .read "c" 2, .added "c" 5 4, .read "d" 2,
    .added "d" (-20) (-8)]

theorem Course.accounted_sample :
    Session.fresh.Course Sample.posted (Session.fresh.run Sample.counting).2 ∧
      Accounted Sample.posted (Session.fresh.run Sample.counting).2 ∧
      (Session.fresh.run Sample.counting).2.world.counters "c" = some 4 ∧
      Balance "c" Sample.posted 4 := by
  have hposted : Session.fresh.postings Sample.counting = Sample.posted := by decide +kernel
  have hcourse := Course.run .fresh Sample.counting
  have hvalue : (Session.fresh.run Sample.counting).2.world.counters "c" = some 4 := by
    decide +kernel
  rw [hposted] at hcourse
  have haccounted : Accounted Sample.posted _ := hcourse.accounted
  exact ⟨hcourse, haccounted, hvalue, (haccounted.value "c" 4).mp hvalue⟩

end Session
end BuildDialect
