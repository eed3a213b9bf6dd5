import BuildDialect.Proofs.Yaml.Composing
import BuildDialect.Yaml.Read
import Mathlib.Data.List.Forall2
import Mathlib.Tactic.Set

/-!
The value of a mapping of a text and a list of texts. Examining it finds nothing that would change
what its nodes stand for.
-/
namespace BuildDialect.Yaml

def AreTexts (nodes : List Node) (texts : List RawText) : Prop :=
  List.Forall₂ (fun node text => ∃ place, node = .scalar place .text text) nodes texts

theorem areTexts_items {texts : List RawText} (h : ∀ text ∈ texts, Implicit.tagOf text = .text)
    (passed : Nat) : AreTexts (Compose.items passed texts) texts := by
  induction texts generalizing passed with
  | nil => exact List.Forall₂.nil
  | cons text rest ih =>
    have hrest := ih (fun t ht => h t (List.mem_cons_of_mem _ ht)) (passed + 2)
    refine List.Forall₂.cons ⟨passed + 1, ?_⟩ hrest
    rw [h text List.mem_cons_self]

theorem forM_note_texts {nodes : List Node} {texts : List RawText} (h : AreTexts nodes texts)
    (document : Document) (found : Examination) :
    nodes.forM (Examine.note document) found = .ok ((), found) := by
  induction h with
  | nil => rfl
  | @cons node text rest others hnode _ ih =>
    obtain ⟨place, rfl⟩ := hnode
    have hnote : Examine.note document (.scalar place .text text) found = .ok ((), found) := rfl
    change (Examine.note document _ >>= fun _ => List.forM _ (Examine.note document)) found = _
    rw [bind_ok hnote]
    exact ih

section

variable (key word listKey : RawText) (items : List Node) (bound : Nat)

def Document.ofFields : Document :=
  ⟨.mapping 0 .mapping [(.scalar 2 .text key, .scalar 4 .text word),
    (.scalar 6 .text listKey, .sequence 8 .sequence items)], [], bound + 2⟩

/-- What is found of it: its two collections. -/
def Examination.ofFields : Examination :=
  ⟨[], [], [], [8, 0], []⟩

variable {items} {texts : List RawText}

/-- One collection is left for later: its content is read, and then what that leaves. -/
theorem levels_single {document : Document} {node : Node} {found after final : Examination}
    {fuel : Nat} (hlater : found.later = [node])
    (hcontent : Examine.content document node { found with later := [] } = .ok ((), after))
    (hrest : Examine.levels document fuel after = .ok ((), final)) :
    Examine.levels document (fuel + 1) found = .ok ((), final) := by
  set read : Examination := { found with later := [] }
  have hread : (modify fun found : Examination => { found with later := [] } : Examine Unit) found =
      .ok ((), read) := rfl
  have hnodes : [node].reverse.forM (Examine.content document) read = .ok ((), after) := by
    change (Examine.content document node >>= fun _ => pure ()) read = _
    rw [bind_ok hcontent]
    rfl
  rw [Examine.levels, bind_ok (get_ok found), hlater]
  dsimp only
  rw [bind_ok hread, bind_ok hnodes, hrest]

theorem examine_ofFields (h : AreTexts items texts) :
    (Document.ofFields key word listKey items bound).examine = .ok .ofFields := by
  set document := Document.ofFields key word listKey items bound
  have hroot : Examine.note document document.root .start =
      .ok ((), ⟨[], [], [], [0], [document.root]⟩) := rfl
  have hfields : Examine.content document document.root ⟨[], [], [], [0], []⟩ =
      .ok ((), ⟨[], [], [], [8, 0], [.sequence 8 .sequence items]⟩) := rfl
  have hlist : Examine.content document (.sequence 8 .sequence items) .ofFields =
      .ok ((), .ofFields) := forM_note_texts h document _
  have hend : Examine.levels document (bound + 1) .ofFields = .ok ((), .ofFields) := rfl
  have hlater : (⟨[], [], [], [0], [document.root]⟩ : Examination).later = [document.root] := rfl
  have hlevels := levels_single hlater hfields (levels_single rfl hlist hend)
  have hexamined : (do
      Examine.note document document.root
      Examine.levels document (document.bound + 1) : Examine Unit) .start =
        .ok ((), .ofFields) := by
    rw [bind_ok hroot]
    exact hlevels
  unfold Document.examine
  change ((do
      Examine.note document document.root
      Examine.levels document (document.bound + 1) : Examine Unit) .start >>= _) = _
  rw [hexamined]
  rfl

theorem value_text (document : Document) (found : Examination) (depth : Nat) (place : Nat)
    (text : RawText) : document.value found depth (.scalar place .text text) = .text text := by
  have htag : found.tagOf document (.scalar place .text text) = .text := rfl
  have hread : Scalar.read place .text text = .ok (.text text) := rfl
  have htarget : document.target (.scalar place .text text) = .scalar place .text text := rfl
  rw [Document.value]
  simp only [htarget, htag, hread]

theorem value_texts (document : Document) (found : Examination) (depth : Nat)
    (h : AreTexts items texts) :
    items.map (fun item => document.value found depth item) = texts.map .text := by
  induction h with
  | nil => rfl
  | @cons node text rest others hnode _ ih =>
    obtain ⟨place, rfl⟩ := hnode
    rw [List.map_cons, value_text, ih, List.map_cons]

theorem value_ofFields (h : AreTexts items texts) :
    (Document.ofFields key word listKey items bound).value .ofFields 3
        (Document.ofFields key word listKey items bound).root =
      .mapping [(.text key, .text word), (.text listKey, .list (texts.map .text))] := by
  set document := Document.ofFields key word listKey items bound
  have hlist : document.value .ofFields 2 (.sequence 8 .sequence items) =
      .list (texts.map .text) := by
    have htarget : document.target (.sequence 8 .sequence items) = .sequence 8 .sequence items :=
      rfl
    have htag : Examination.ofFields.tagOf document (.sequence 8 .sequence items) = .sequence := rfl
    rw [Document.value]
    simp only [htarget, htag]
    rw [value_texts document .ofFields 1 h]
  have htarget : document.target document.root = document.root := rfl
  have htag : Examination.ofFields.tagOf document document.root = .mapping := rfl
  let pairs : List (Node × Node) :=
    [(.scalar 2 .text key, .scalar 4 .text word),
      (.scalar 6 .text listKey, .sequence 8 .sequence items)]
  have hpairs : Examination.ofFields.pairsAt 0 pairs = pairs := rfl
  rw [Document.value]
  simp only [htarget, htag]
  change Value.mapping (Document.value.valuePairs document .ofFields 3
    (Examination.ofFields.pairsAt 0 pairs)) = _
  rw [hpairs, Document.value.valuePairs]
  simp only [pairs, List.map_cons, List.map_nil, value_text, hlist]

end

end BuildDialect.Yaml
