import BuildDialect.Proofs.Text.Decoding
import BuildDialect.Yaml.Intake

/-!
Texts that are taken in as a whole: those of allowed characters, with line feeds for line ends.
-/
namespace BuildDialect

theorem Line.unifyOnto_append {text : List Char} (h : '\r' ∉ text) (written : List Char) :
    unifyOnto written text = written.reverse ++ text := by
  induction text generalizing written with
  | nil => rw [unifyOnto, List.append_nil]
  | cons c text ih =>
    have hother : c ≠ '\r' := fun heq => h (heq ▸ List.mem_cons_self)
    have htext : '\r' ∉ text := fun hmem => h (List.mem_cons_of_mem _ hmem)
    have hstep : unifyOnto written (c :: text) = unifyOnto (c :: written) text := by
      rw [unifyOnto, if_neg hother]
      exact fun rest heq _ => hother heq
    rw [hstep, ih htext, List.reverse_cons, List.append_assoc, List.singleton_append]

theorem Line.unify_eq_self {text : List Char} (h : '\r' ∉ text) : unify text = text :=
  unifyOnto_append h []

namespace Yaml.Intake

theorem ofText_allowed {text : List Char} (h : ∀ c ∈ text, isAllowed c) :
    ofText text = ⟨text, none⟩ := by
  have hnone : text.findIdx? (fun c => !isAllowed c) = none := by
    rw [List.findIdx?_eq_none_iff]
    intro c hc
    rw [h c hc, Bool.not_true]
  rw [ofText, hnone]

theorem ofBytes_encode {text : List Char} (hallowed : ∀ c ∈ text, isAllowed c)
    (hline : '\r' ∉ text) : ofBytes (Utf8.encode text) = ⟨text, none⟩ := by
  rw [ofBytes, Utf8.decode?_encode]
  dsimp only
  rw [Line.unify_eq_self hline, ofText_allowed hallowed]

end Yaml.Intake
end BuildDialect
