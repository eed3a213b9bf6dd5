import BuildDialect.Proofs.Text.Decoding

/-!
ASCII in decoded text. An ASCII character is read from its own byte and from nothing else, so that
a text can be searched for ASCII characters, and cut at them, by its bytes.
-/
namespace BuildDialect.Utf8

theorem utf8EncodeChar_ascii {c : Char} (h : c.toNat < 0x80) :
    String.utf8EncodeChar c = [UInt8.ofNat c.toNat] := by
  have hbyte : (UInt8.ofNat c.toNat).toNat = c.toNat := toNat_ofNat (by omega)
  have hone := encode_one (b := UInt8.ofNat c.toNat) (by omega)
  rwa [hbyte, Char.ofNat_toNat] at hone

def ascii (chars : List Char) : List UInt8 := chars.map fun c => UInt8.ofNat c.toNat

theorem encode_ascii {chars : List Char} (h : ∀ c ∈ chars, c.toNat < 0x80) :
    encode chars = ascii chars := by
  induction chars with
  | nil => rfl
  | cons c chars ih =>
    obtain ⟨hc, hchars⟩ := List.forall_mem_cons.mp h
    have hrest := ih hchars
    rw [encode, List.flatMap_cons, utf8EncodeChar_ascii hc, ← encode, hrest]
    rfl

theorem replacement_not_ascii : ¬ replacement.toNat < 0x80 := by
  decide

namespace Reads

variable {bytes : List UInt8} {text : List Char} {c : Char}

theorem of_cons_ascii (h : Reads bytes (c :: text)) (hc : c.toNat < 0x80) :
    ∃ rest, bytes = UInt8.ofNat c.toNat :: rest ∧ Reads rest text := by
  generalize ht : c :: text = text' at h
  cases h with
  | nil => cases ht
  | @char c' rest text'' next =>
    obtain ⟨rfl, rfl⟩ := List.cons.inj ht
    rw [utf8EncodeChar_ascii hc]
    exact ⟨rest, rfl, next⟩
  | malformed hm next =>
    obtain ⟨rfl, _⟩ := List.cons.inj ht
    exact absurd hc replacement_not_ascii

theorem mem_ascii (h : Reads bytes text) (hmem : c ∈ text) (hc : c.toNat < 0x80) :
    UInt8.ofNat c.toNat ∈ bytes := by
  induction h with
  | nil => cases hmem
  | char c' next ih =>
    rcases List.mem_cons.mp hmem with rfl | hmem
    · rw [utf8EncodeChar_ascii hc]
      exact List.mem_cons_self
    · exact List.mem_append_right _ (ih hmem)
  | malformed hm next ih =>
    rcases List.mem_cons.mp hmem with rfl | hmem
    · exact absurd hc replacement_not_ascii
    · exact List.mem_append_right _ (ih hmem)

end Reads

theorem decode_eq_append_iff {chars : List Char} (ascii : ∀ c ∈ chars, c.toNat < 0x80)
    {bytes : List UInt8} {text : List Char} : decode bytes = chars ++ text ↔
      ∃ rest, bytes = Utf8.ascii chars ++ rest ∧ decode rest = text := by
  induction chars generalizing bytes with
  | nil => simp [Utf8.ascii]
  | cons c chars ih =>
    obtain ⟨hc, hchars⟩ := List.forall_mem_cons.mp ascii
    constructor
    · intro h
      obtain ⟨rest, rfl, hrest⟩ := (reads_iff.mpr h).of_cons_ascii hc
      obtain ⟨rest, rfl, htext⟩ := (ih hchars).mp (reads_iff.mp hrest)
      exact ⟨rest, rfl, htext⟩
    · rintro ⟨rest, rfl, htext⟩
      have hrest : decode (Utf8.ascii chars ++ rest) = chars ++ text :=
        (ih hchars).mpr ⟨rest, rfl, htext⟩
      have hhead := decode_encode_append c (Utf8.ascii chars ++ rest)
      rw [utf8EncodeChar_ascii hc, hrest] at hhead
      exact hhead

theorem decode_eq_nil_iff {bytes : List UInt8} : decode bytes = [] ↔ bytes = [] := by
  refine ⟨fun h => ?_, fun h => h ▸ rfl⟩
  have hreads := reads_iff.mpr h
  generalize ht : ([] : List Char) = text at hreads
  cases hreads with
  | nil => rfl
  | char c next => cases ht
  | malformed hm next => cases ht

theorem decode_eq_ascii_iff {chars : List Char} (ascii : ∀ c ∈ chars, c.toNat < 0x80)
    {bytes : List UInt8} : decode bytes = chars ↔ bytes = Utf8.ascii chars := by
  have h : decode bytes = chars ++ [] ↔ _ := decode_eq_append_iff ascii
  rw [List.append_nil] at h
  rw [h]
  constructor
  · rintro ⟨rest, rfl, hrest⟩
    rw [decode_eq_nil_iff.mp hrest, List.append_nil]
  · rintro rfl
    exact ⟨[], (List.append_nil _).symm, rfl⟩

/-- An ASCII byte ends whatever a decoder is inside of, and is read for itself. -/
theorem readOn_append_ascii {p : Progress} (sound : p.Sound) {e : UInt8} (he : e.toNat < 0x80)
    (front back : List UInt8) :
    readOn p (front ++ e :: back) = readOn p front ++ Char.ofNat e.toNat :: decode back := by
  induction front generalizing p with
  | nil =>
    have hread := readOn_of_read (p := .between) (enter_ascii he) back
    cases p with
    | between => exact hread
    | inside bits low high more =>
      have hbad : ¬ (low ≤ e ∧ e ≤ high) := by
        rintro ⟨hle, _⟩
        have h80 : (0x80 : UInt8) ≤ e := UInt8.le_trans sound.1 hle
        simp only [UInt8.le_iff_toNat_le, UInt8.reduceToNat] at h80
        omega
      rw [List.nil_append, readOn_inside_bad hbad, hread]
      rfl
  | cons b front ih =>
    rw [List.cons_append, readOn_cons, readOn_cons, ih (step_sound p b), List.append_assoc]

theorem decode_append_ascii {e : UInt8} (he : e.toNat < 0x80) (front back : List UInt8) :
    decode (front ++ e :: back) = decode front ++ Char.ofNat e.toNat :: decode back :=
  readOn_append_ascii (p := .between) True.intro he front back

theorem mem_decode_ascii {e : UInt8} (he : e.toNat < 0x80) {bytes : List UInt8} (h : e ∈ bytes) :
    Char.ofNat e.toNat ∈ decode bytes := by
  obtain ⟨front, back, rfl⟩ := List.append_of_mem h
  rw [decode_append_ascii he]
  exact List.mem_append_right _ List.mem_cons_self

end BuildDialect.Utf8
