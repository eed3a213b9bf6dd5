import BuildDialect.Proofs.Yaml.Reading
import BuildDialect.Yaml.Composition

/-!
Composing a mapping of a word and a list of words, of which none has an anchor or a tag. The list is
written line by line without indentation, or it is empty and in brackets.
-/
namespace BuildDialect.Yaml

namespace Compose

variable {c : Composer} {token : Token} {rest : List Token}

theorem peek_ok (h : c.tokens = token :: rest) : peek c = .ok (token, c) := by
  unfold peek
  rw [bind_ok (get_ok c), h]
  rfl

theorem drop_ok (h : c.tokens = token :: rest) :
    drop c = .ok ((), { c with tokens := rest, passed := c.passed + 1 }) := by
  have hdrop : drop c = .ok ((), { c with tokens := c.tokens.tail, passed := c.passed + 1 }) := rfl
  rw [hdrop, h, List.tail_cons]

/-- Tokens that are said about no node. -/
def isBare : Token → Bool
  | .anchor _ | .tag .. => false
  | _ => true

theorem anchor?_none (h : c.tokens = token :: rest) (hbare : isBare token) :
    anchor? c = .ok (none, c) := by
  unfold anchor?
  rw [bind_ok (peek_ok h)]
  cases token <;> first | rfl | cases hbare

theorem tag?_none (h : c.tokens = token :: rest) (hbare : isBare token) :
    tag? c = .ok (none, c) := by
  unfold tag?
  rw [bind_ok (peek_ok h)]
  cases token <;> first | rfl | cases hbare

theorem properties_none (h : c.tokens = token :: rest) (hbare : isBare token) :
    properties c = .ok (⟨none, none⟩, c) := by
  unfold properties
  rw [bind_ok (anchor?_none h hbare)]
  dsimp only
  rw [bind_ok (tag?_none h hbare)]
  rfl

variable {inBlock inMapping : Bool} {room fuel : Nat}

theorem node_scalar {text : RawText} (h : c.tokens = .scalar text true :: rest) :
    node inBlock inMapping room (fuel + 1) c =
      .ok (.scalar c.passed (Implicit.tagOf text) text,
        { c with tokens := rest, passed := c.passed + 1 }) := by
  rw [node, bind_ok (peek_ok h)]
  dsimp only
  rw [bind_ok (rfl : place c = .ok (c.passed, c)), bind_ok (properties_none h rfl),
    bind_ok (peek_ok h)]
  dsimp only
  rw [bind_ok (drop_ok h)]
  rfl

def items (passed : Nat) : List RawText → List Node
  | [] => []
  | text :: rest => .scalar (passed + 1) (Implicit.tagOf text) text :: items (passed + 2) rest

def entries (texts : List RawText) : List Token :=
  texts.flatMap fun text => [.blockEntry, .scalar text true]

theorem length_entries (texts : List RawText) : (entries texts).length = 2 * texts.length := by
  induction texts with
  | nil => rfl
  | cons text texts ih =>
    have hcons : entries (text :: texts) = .blockEntry :: .scalar text true :: entries texts := rfl
    rw [hcons, List.length_cons, List.length_cons, ih, List.length_cons]
    omega

theorem levelItems_ok {texts : List RawText} (h : c.tokens = entries texts ++ .blockEnd :: rest)
    (hfuel : texts.length < fuel) :
    levelItems room fuel c = .ok (items c.passed texts,
      { c with tokens := .blockEnd :: rest, passed := c.passed + 2 * texts.length }) := by
  induction texts generalizing c fuel with
  | nil =>
    obtain ⟨fuel, rfl⟩ : ∃ n, fuel = n + 1 := ⟨fuel - 1, by omega⟩
    have hpeek : peek c = .ok (.blockEnd, c) := peek_ok h
    rw [levelItems, bind_ok hpeek]
    obtain ⟨_, _, _, _, _, _⟩ := c
    cases h
    rfl
  | cons text texts ih =>
    rw [List.length_cons] at hfuel
    obtain ⟨fuel, rfl⟩ : ∃ n, fuel = n + 2 := ⟨fuel - 2, by omega⟩
    have hentry : c.tokens =
        .blockEntry :: .scalar text true :: (entries texts ++ .blockEnd :: rest) := h
    set a : Composer := { c with
      tokens := .scalar text true :: (entries texts ++ .blockEnd :: rest)
      passed := c.passed + 1 }
    set b : Composer := { c with
      tokens := entries texts ++ .blockEnd :: rest
      passed := c.passed + 2 }
    have hdrop : drop c = .ok ((), a) := drop_ok hentry
    have hpeek : peek a = .ok (.scalar text true, a) := peek_ok rfl
    have hnode : node true false room (fuel + 1) a =
        .ok (.scalar a.passed (Implicit.tagOf text) text, b) := node_scalar rfl
    have hrest := ih (c := b) rfl (by omega : texts.length < fuel + 1)
    rw [levelItems, bind_ok (peek_ok hentry)]
    dsimp only
    rw [bind_ok hdrop, bind_ok hpeek]
    simp only [closesBlockPart, Bool.or_false]
    rw [if_neg (by simp), bind_ok hnode, bind_ok hrest]
    have hpassed : b.passed + 2 * texts.length = c.passed + 2 * (texts.length + 1) := by
      change c.passed + 2 + 2 * texts.length = _
      omega
    rw [List.length_cons, ← hpassed]
    rfl

/-- The tokens of a list as the value of a key: brackets if there is no item. -/
def listTokens : List RawText → List Token
  | [] => [.flowSequenceStart, .flowSequenceEnd]
  | text :: texts => entries (text :: texts)

theorem node_brackets (h : c.tokens = .flowSequenceStart :: .flowSequenceEnd :: rest) :
    node inBlock inMapping (room + 1) (fuel + 2) c =
      .ok (.sequence c.passed .sequence [], { c with tokens := rest, passed := c.passed + 2 }) := by
  set a : Composer := { c with tokens := .flowSequenceEnd :: rest, passed := c.passed + 1 }
  have hdrop : drop c = .ok ((), a) := drop_ok h
  have hitems : flowItems true room (fuel + 1) a =
      .ok ([], { c with tokens := rest, passed := c.passed + 2 }) := by
    rw [flowItems, bind_ok (peek_ok (c := a) rfl)]
    simp only [beq_self_eq_true, if_true]
    rw [bind_ok (drop_ok (c := a) rfl)]
    rfl
  rw [node, bind_ok (peek_ok h)]
  dsimp only
  rw [bind_ok (rfl : place c = .ok (c.passed, c)), bind_ok (properties_none h rfl),
    bind_ok (peek_ok h)]
  dsimp only
  rw [bind_ok (rfl : begin ⟨none, none⟩ c = .ok ((), c)), bind_ok hdrop,
    bind_ok (rfl : deeper (room + 1) a = .ok (room, a)), bind_ok hitems]
  rfl

theorem node_level {texts : List RawText} (hne : texts ≠ [])
    (h : c.tokens = entries texts ++ .blockEnd :: rest) (hfuel : texts.length < fuel) :
    node inBlock true (room + 1) (fuel + 1) c =
      .ok (.sequence c.passed .sequence (items c.passed texts),
        { c with tokens := .blockEnd :: rest, passed := c.passed + 2 * texts.length }) := by
  obtain ⟨text, others, rfl⟩ := List.exists_cons_of_ne_nil hne
  have hentry : c.tokens =
      .blockEntry :: .scalar text true :: (entries others ++ .blockEnd :: rest) := h
  rw [node, bind_ok (peek_ok hentry)]
  dsimp only
  rw [bind_ok (rfl : place c = .ok (c.passed, c)), bind_ok (properties_none hentry rfl),
    bind_ok (peek_ok hentry)]
  simp only [if_true]
  rw [bind_ok (rfl : begin ⟨none, none⟩ c = .ok ((), c)),
    bind_ok (rfl : deeper (room + 1) c = .ok (room, c)), bind_ok (levelItems_ok h hfuel)]
  rfl

theorem node_list {texts : List RawText} (h : c.tokens = listTokens texts ++ .blockEnd :: rest)
    (hfuel : texts.length + 1 < fuel) :
    ∃ passed, node inBlock true (room + 1) fuel c =
      .ok (.sequence c.passed .sequence (items c.passed texts),
        { c with tokens := .blockEnd :: rest, passed }) := by
  cases texts with
  | nil =>
    obtain ⟨fuel, rfl⟩ : ∃ n, fuel = n + 2 := ⟨fuel - 2, by omega⟩
    exact ⟨_, node_brackets h⟩
  | cons text texts =>
    obtain ⟨fuel, rfl⟩ : ∃ n, fuel = n + 1 := ⟨fuel - 1, by omega⟩
    exact ⟨_, node_level (List.cons_ne_nil _ _) h (by omega)⟩

/-- A pair of a word and what is read after its colon. -/
theorem blockPairs_cons {key : RawText} {value : Node} {pairs : List (Node × Node)}
    {d e : Composer} (h : c.tokens = .key :: .scalar key true :: .value :: token :: rest)
    (hopen : closesBlockPart token = false)
    (hvalue : node true true room (fuel + 1)
      { c with tokens := token :: rest, passed := c.passed + 3 } = .ok (value, d))
    (hrest : blockPairs room (fuel + 1) d = .ok (pairs, e)) :
    blockPairs room (fuel + 2) c =
      .ok ((.scalar (c.passed + 1) (Implicit.tagOf key) key, value) :: pairs, e) := by
  set c₁ : Composer := { c with
    tokens := .scalar key true :: .value :: token :: rest
    passed := c.passed + 1 }
  set c₂ : Composer := { c with tokens := .value :: token :: rest, passed := c.passed + 2 }
  set c₃ : Composer := { c with tokens := token :: rest, passed := c.passed + 3 }
  have hkey : node true true room (fuel + 1) c₁ =
      .ok (.scalar c₁.passed (Implicit.tagOf key) key, c₂) := node_scalar rfl
  rw [blockPairs, bind_ok (peek_ok h)]
  dsimp only
  have hscalar : closesBlockPart (.scalar key true) = false := rfl
  rw [bind_ok (drop_ok h), bind_ok (peek_ok (c := c₁) rfl), hscalar, if_neg Bool.false_ne_true,
    bind_ok hkey, bind_ok (peek_ok (c := c₂) rfl), beq_self_eq_true, if_pos rfl,
    bind_ok (drop_ok (c := c₂) rfl), bind_ok (peek_ok (c := c₃) rfl), hopen,
    if_neg Bool.false_ne_true, bind_ok hvalue, bind_ok hrest]
  rfl

theorem blockPairs_end (h : c.tokens = .blockEnd :: rest) :
    blockPairs room (fuel + 1) c = .ok ([], { c with tokens := rest, passed := c.passed + 1 }) := by
  rw [blockPairs, bind_ok (peek_ok h)]
  dsimp only
  rw [bind_ok (rfl : expect (Token.blockEnd == .blockEnd) c = .ok ((), c)), bind_ok (drop_ok h)]
  rfl

theorem documentStart?_end (h : c.tokens = .streamEnd :: rest) :
    documentStart? (fuel + 1) c = .ok (false, c) := by
  rw [documentStart?, bind_ok (peek_ok h)]
  rfl

/-- A text may hold just its outermost mapping. -/
theorem root?_ok {root : Node} {after : Composer} (h : c.tokens = .blockMappingStart :: rest)
    (hnode : node true false deepest (fuel + 1) c = .ok (root, after))
    (hafter : after.tokens = [.streamEnd]) : root? (fuel + 1) c = .ok (some root, after) := by
  unfold root?
  rw [bind_ok (peek_ok h)]
  simp only [Bool.false_eq_true, if_false]
  have hother : (Token.streamEnd == .documentEnd) = false := by decide
  rw [bind_ok hnode, pure_bind]
  dsimp only
  rw [bind_ok (peek_ok hafter), hother, if_neg Bool.false_ne_true,
    bind_ok (documentStart?_end hafter)]
  rfl

def mappingTokens (key word listKey : RawText) (texts : List RawText) : List Token :=
  [.blockMappingStart, .key, .scalar key true, .value, .scalar word true, .key,
    .scalar listKey true, .value] ++ listTokens texts ++ [.blockEnd, .streamEnd]

theorem listTokens_cons (texts : List RawText) : ∃ token rest,
    listTokens texts = token :: rest ∧ closesBlockPart token = false := by
  cases texts with
  | nil => exact ⟨_, _, rfl, rfl⟩
  | cons text texts => exact ⟨_, _, rfl, rfl⟩

theorem node_mapping {key word listKey : RawText} {texts : List RawText}
    (h : c.tokens = mappingTokens key word listKey texts) (hfuel : texts.length + 5 < fuel) :
    ∃ passed, node true inMapping (room + 2) fuel c =
      .ok (.mapping c.passed .mapping
          [(.scalar (c.passed + 2) (Implicit.tagOf key) key,
            .scalar (c.passed + 4) (Implicit.tagOf word) word),
          (.scalar (c.passed + 6) (Implicit.tagOf listKey) listKey,
            .sequence (c.passed + 8) .sequence (items (c.passed + 8) texts))],
        { c with tokens := [.streamEnd], passed }) := by
  obtain ⟨fuel, rfl⟩ : ∃ n, fuel = n + 4 := ⟨fuel - 4, by omega⟩
  obtain ⟨token, tail, htokens, hopen⟩ := listTokens_cons texts
  -- `a` stands before the first key, `b` before the second
  set b : Composer := { c with
    tokens := .key :: .scalar listKey true :: .value :: token :: (tail ++ [.blockEnd, .streamEnd])
    passed := c.passed + 5 }
  set a : Composer := { c with
    tokens := .key :: .scalar key true :: .value :: .scalar word true :: b.tokens
    passed := c.passed + 1 }
  have hstart : c.tokens = .blockMappingStart :: a.tokens := by
    rw [h, mappingTokens, htokens]
    rfl
  have hword : node true true (room + 1) (fuel + 2) { c with
      tokens := .scalar word true :: b.tokens, passed := c.passed + 4 } =
        .ok (.scalar (c.passed + 4) (Implicit.tagOf word) word, b) := node_scalar rfl
  have hlist : ∃ passed, node true true (room + 1) (fuel + 1) { c with
      tokens := token :: (tail ++ [.blockEnd, .streamEnd]), passed := c.passed + 8 } =
        .ok (.sequence (c.passed + 8) .sequence (items (c.passed + 8) texts),
          { c with tokens := [.blockEnd, .streamEnd], passed }) := by
    refine node_list ?_ (by omega)
    rw [htokens]
    rfl
  obtain ⟨passed, hlist⟩ := hlist
  have hsecond := blockPairs_cons (c := b) rfl hopen hlist (blockPairs_end rfl)
  have hpairs := blockPairs_cons (c := a) rfl rfl hword hsecond
  refine ⟨passed + 1, ?_⟩
  rw [node, bind_ok (peek_ok hstart)]
  dsimp only
  rw [bind_ok (rfl : place c = .ok (c.passed, c)), bind_ok (properties_none hstart rfl),
    bind_ok (peek_ok hstart)]
  simp only [if_true]
  rw [bind_ok (rfl : begin ⟨none, none⟩ c = .ok ((), c)), bind_ok (drop_ok hstart),
    bind_ok (rfl : deeper (room + 2) a = .ok (room + 1, a)), bind_ok hpairs]
  rfl

end Compose

/-- The document of such a mapping. -/
theorem Document.ofTokens_mapping (key word listKey : RawText) (texts : List RawText) :
    Document.ofTokens ⟨Compose.mappingTokens key word listKey texts, none⟩ =
      .ok (some ⟨.mapping 0 .mapping
        [(.scalar 2 (Implicit.tagOf key) key, .scalar 4 (Implicit.tagOf word) word),
          (.scalar 6 (Implicit.tagOf listKey) listKey,
            .sequence 8 .sequence (Compose.items 8 texts))],
        [], (Compose.mappingTokens key word listKey texts).length⟩) := by
  set tokens := Compose.mappingTokens key word listKey texts with htokens
  set c : Composer := ⟨tokens, 0, none, Compose.commonHandles, [], []⟩
  have hlength : texts.length + 10 ≤ tokens.length := by
    rw [htokens, Compose.mappingTokens, List.length_append, List.length_append]
    cases texts with
    | nil => exact Nat.le_add_left 10 2
    | cons text texts =>
      rw [Compose.listTokens, Compose.length_entries]
      change _ ≤ 8 + _ + 2
      omega
  obtain ⟨passed, hnode⟩ : ∃ passed, Compose.node true false Compose.deepest
      (4 * (tokens.length + 3) + 3 + 1) c = .ok (_, { c with tokens := [.streamEnd], passed }) :=
    Compose.node_mapping htokens (by omega)
  have hroot := Compose.root?_ok (c := c) htokens hnode rfl
  unfold Document.ofTokens
  change (Compose.root? (4 * (tokens.length + 3) + 3 + 1) c >>= _) = _
  rw [hroot]
  rfl

end BuildDialect.Yaml
