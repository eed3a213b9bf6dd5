import BuildDialect.Proofs.Text.Encoding

/-!
Decoding as a relation. Where the bytes of a character are, it is read; where no character can be
read, the longest piece that could have become one is read as a replacement character. Bytes are
read in one way only, and decoding is that way.
-/
namespace BuildDialect.Utf8

def Begins (piece : List UInt8) : Prop := ∃ c : Char, piece <+: String.utf8EncodeChar c

/-- A piece at which no character can be read: the longest one that could have become a character,
or a single byte that begins none. -/
structure Malformed (piece rest : List UInt8) : Prop where
  unreadable : ∀ c : Char, ¬ String.utf8EncodeChar c <+: piece ++ rest
  begun : piece.length = 1 ∨ piece ≠ [] ∧ Begins piece
  longest : ∀ longer, longer <+: piece ++ rest → Begins longer → longer.length ≤ piece.length

/-- What bytes are read as, with a replacement character for each malformed piece. -/
inductive Reads : List UInt8 → List Char → Prop
  | nil : Reads [] []
  | char (c : Char) {rest : List UInt8} {text : List Char} (next : Reads rest text) :
      Reads (String.utf8EncodeChar c ++ rest) (c :: text)
  | malformed {piece rest : List UInt8} {text : List Char} (h : Malformed piece rest)
      (next : Reads rest text) : Reads (piece ++ rest) (replacement :: text)

inductive Reached : List UInt8 → Progress → Prop
  | start : Reached [] .between
  | step {begun : List UInt8} {p : Progress} {b low high : UInt8} {bits more : Nat}
      (h : Reached begun p) (hb : p.step b = ([], .inside bits low high more)) :
      Reached (begun ++ [b]) (.inside bits low high more)

/-- The bytes that can continue a character are not ASCII, and there are some. -/
def Progress.Sound : Progress → Prop
  | .between => True
  | .inside _ low high _ => 0x80 ≤ low ∧ low ≤ high

theorem enter_sound (b : UInt8) : (enter b).2.Sound := by
  cases lead b with
  | ascii h => rw [enter_ascii h]; exact True.intro
  | two h => rw [enter_two h]; exact ⟨by decide, by decide⟩
  | three h =>
    rw [enter_three h]
    refine ⟨?_, ?_⟩ <;> split_ifs <;> first | omega | decide
  | four h =>
    rw [enter_four h]
    refine ⟨?_, ?_⟩ <;> split_ifs <;> first | omega | decide
  | bad h => rw [enter_bad h]; exact True.intro

theorem step_sound (p : Progress) (b : UInt8) : (p.step b).2.Sound := by
  cases p with
  | between => exact enter_sound b
  | inside bits low high more =>
    by_cases hb : low ≤ b ∧ b ≤ high
    · cases more with
      | zero => rw [step_inside_last hb]; exact True.intro
      | succ more => rw [step_inside_more hb]; exact ⟨by decide, by decide⟩
    · rw [step_inside_bad hb]
      exact enter_sound b

theorem Completes.of_le {bits more : Nat} {low high : UInt8} (h : low ≤ high) :
    ∃ tail c, Completes (.inside bits low high more) tail c := by
  induction more generalizing bits low high with
  | zero => exact ⟨_, _, completes_last_iff.mpr ⟨low, rfl, ⟨UInt8.le_refl _, h⟩, rfl⟩⟩
  | succ more ih =>
    obtain ⟨tail, c, hc⟩ := @ih (bits * 64 + (low.toNat - 0x80)) 0x80 0xBF (by decide)
    exact ⟨_, c, completes_more_iff.mpr ⟨low, tail, rfl, ⟨UInt8.le_refl _, h⟩, hc⟩⟩

namespace Reached

variable {begun : List UInt8} {p : Progress}

theorem sound (h : Reached begun p) : p.Sound := by
  cases h with
  | start => exact True.intro
  | @step _ p b _ _ _ _ h hb =>
    have hs := step_sound p b
    rwa [hb] at hs

/-- What has been taken in makes a character with just those bytes that complete it from here. -/
theorem completes_iff (h : Reached begun p) {tail : List UInt8} {c : Char} :
    Completes .between (begun ++ tail) c ↔ Completes p tail c := by
  induction h generalizing tail with
  | start => rfl
  | step h hb ih =>
    rw [List.append_assoc, ih]
    constructor
    · intro hc
      cases hc with
      | last h' => simp [hb] at h'
      | more h' rest =>
        rw [hb] at h'
        obtain ⟨_, rfl⟩ := Prod.mk.inj h'
        exact rest
    · exact .more hb

theorem begins {bits more : Nat} {low high : UInt8}
    (h : Reached begun (.inside bits low high more)) : begun ≠ [] ∧ Begins begun := by
  obtain ⟨tail, c, hc⟩ : ∃ tail c, Completes (.inside bits low high more) tail c :=
    Completes.of_le h.sound.2
  refine ⟨?_, c, tail, (h.completes_iff.mpr hc).encodes⟩
  cases h with
  | step h hb => simp

theorem not_complete (h : Reached begun p) (c : Char) : ¬ String.utf8EncodeChar c <+: begun := by
  induction h with
  | start =>
    intro hc
    exact String.utf8EncodeChar_ne_nil (List.prefix_nil.mp hc)
  | @step begun p b _ _ _ _ h hb ih =>
    intro hc
    rcases List.prefix_concat_iff.mp hc with hc | hc
    · -- a character that ends with this byte would have been read at it
      have hcomplete := h.completes_iff.mp (Utf8.completes_iff.mpr hc.symm)
      cases hcomplete with
      | last h' => simp [hb] at h'
      | more h' rest => cases rest
    · exact ih hc

theorem not_begins (h : Reached begun p) {b : UInt8} {out : List (Option Char)} {next : Progress}
    (hb : p.step b = (none :: out, next)) : ¬ Begins (begun ++ [b]) := by
  rintro ⟨c, tail, hc⟩
  rw [List.append_assoc] at hc
  have hcomplete := h.completes_iff.mp (Utf8.completes_iff.mpr hc)
  cases hcomplete with
  | last h' => simp [hb] at h'
  | more h' rest => simp [hb] at h'

end Reached

theorem Begins.mono {piece longer : List UInt8} (h : Begins longer) (hp : piece <+: longer) :
    Begins piece := by
  obtain ⟨c, hc⟩ := h
  exact ⟨c, hp.trans hc⟩

theorem prefix_append_cases {α : Type} {l front back : List α} (h : l <+: front ++ back) :
    l <+: front ∨ ∃ b rest, back = b :: rest ∧ front ++ [b] <+: l := by
  rcases List.prefix_or_prefix_of_prefix h (List.prefix_append front back) with hl | hl
  · exact Or.inl hl
  · obtain ⟨more, rfl⟩ := hl
    rw [List.prefix_append_right_inj] at h
    cases more with
    | nil => exact Or.inl (by simp)
    | cons b more =>
      obtain ⟨rest, hrest⟩ := h
      refine Or.inr ⟨b, more ++ rest, hrest.symm, ?_⟩
      rw [List.prefix_append_right_inj]
      exact ⟨more, rfl⟩

/-- A piece is malformed if no character is read in it and none goes on after it. -/
theorem Malformed.of_stop {piece rest : List UInt8}
    (whole : ∀ c : Char, ¬ String.utf8EncodeChar c <+: piece)
    (begun : piece.length = 1 ∨ piece ≠ [] ∧ Begins piece)
    (stop : ∀ b, rest.head? = some b → ¬ Begins (piece ++ [b])) : Malformed piece rest where
  unreadable c hc := by
    rcases prefix_append_cases hc with hp | ⟨b, more, rfl, hp⟩
    · exact whole c hp
    · exact stop b rfl ⟨c, hp⟩
  begun := begun
  longest longer hl hb := by
    rcases prefix_append_cases hl with hp | ⟨b, more, rfl, hp⟩
    · exact hp.length_le
    · exact absurd (hb.mono hp) (stop b rfl)

def readOn (p : Progress) (bytes : List UInt8) : List Char :=
  (piecesOnto [] p bytes).map fun piece => piece.getD replacement

theorem piecesOnto_eq_append (read : List (Option Char)) (p : Progress) (bytes : List UInt8) :
    piecesOnto read p bytes = read.reverse ++ piecesOnto [] p bytes := by
  induction bytes generalizing read p with
  | nil => simp [piecesOnto]
  | cons b rest ih =>
    simp only [piecesOnto]
    rw [ih, ih ((p.step b).1.reverse ++ [])]
    simp

theorem readOn_cons (p : Progress) (b : UInt8) (rest : List UInt8) :
    readOn p (b :: rest) =
      ((p.step b).1.map fun piece => piece.getD replacement) ++ readOn (p.step b).2 rest := by
  simp only [readOn, piecesOnto]
  rw [piecesOnto_eq_append]
  simp

section

variable {p next : Progress} {b low high : UInt8} {bits more : Nat} {c : Char}

theorem readOn_of_read (h : p.step b = ([some c], .between)) (rest : List UInt8) :
    readOn p (b :: rest) = c :: readOn .between rest := by
  rw [readOn_cons, h]
  rfl

theorem readOn_of_inside (h : p.step b = ([], next)) (rest : List UInt8) :
    readOn p (b :: rest) = readOn next rest := by
  rw [readOn_cons, h]
  rfl

theorem readOn_of_bad (h : enter b = ([none], .between)) (rest : List UInt8) :
    readOn .between (b :: rest) = replacement :: readOn .between rest := by
  rw [readOn_cons, Progress.step, h]
  rfl

theorem readOn_inside_bad (h : ¬ (low ≤ b ∧ b ≤ high)) (rest : List UInt8) :
    readOn (.inside bits low high more) (b :: rest) =
      replacement :: readOn .between (b :: rest) := by
  rw [readOn_cons, step_inside_bad h, readOn_cons]
  rfl

end

/-- A byte that may come next makes a character whole, or leads further into it. -/
def Progress.GoesOn (p : Progress) (b : UInt8) : Prop :=
  (∃ c, p.step b = ([some c], .between)) ∨
    ∃ bits low high more, p.step b = ([], .inside bits low high more)

theorem enter_cases (b : UInt8) :
    Progress.between.GoesOn b ∨ enter b = ([none], .between) := by
  cases lead b with
  | ascii h => exact Or.inl (Or.inl ⟨_, enter_ascii h⟩)
  | two h => exact Or.inl (Or.inr ⟨_, _, _, _, enter_two h⟩)
  | three h => exact Or.inl (Or.inr ⟨_, _, _, _, enter_three h⟩)
  | four h => exact Or.inl (Or.inr ⟨_, _, _, _, enter_four h⟩)
  | bad h => exact Or.inr (enter_bad h)

theorem step_inside_goesOn {bits more : Nat} {low high b : UInt8} (h : low ≤ b ∧ b ≤ high) :
    (Progress.inside bits low high more).GoesOn b := by
  cases more with
  | zero => exact Or.inl ⟨_, step_inside_last h⟩
  | succ more => exact Or.inr ⟨_, _, _, _, step_inside_more h⟩

namespace Reached

variable {begun : List UInt8} {p : Progress}

theorem reads_goesOn (h : Reached begun p) {b : UInt8} (hb : p.GoesOn b) {rest : List UInt8}
    (later : ∀ {begun p}, Reached begun p → Reads (begun ++ rest) (readOn p rest)) :
    Reads (begun ++ b :: rest) (readOn p (b :: rest)) := by
  obtain ⟨c, hstep⟩ | ⟨bits, low, high, more, hstep⟩ := hb
  · rw [readOn_of_read hstep, List.append_cons,
      (h.completes_iff.mpr (.last hstep)).encodes]
    exact .char c (later .start)
  · rw [readOn_of_inside hstep, List.append_cons]
    exact later (.step h hstep)

theorem malformed_single {b : UInt8} (h : ¬ Begins [b]) (rest : List UInt8) :
    Malformed [b] rest := by
  refine .of_stop (fun c hc => ?_) (Or.inl rfl) fun _ _ hlonger => ?_
  · have hb : String.utf8EncodeChar c <+: [] ++ [b] := hc
    rcases List.prefix_concat_iff.mp hb with heq | hnil
    · exact h ⟨c, [], heq.symm⟩
    · exact start.not_complete c hnil
  · exact h (hlonger.mono (List.prefix_append _ _))

theorem reads_start (b : UInt8) {rest : List UInt8}
    (later : ∀ {begun p}, Reached begun p → Reads (begun ++ rest) (readOn p rest)) :
    Reads (b :: rest) (readOn .between (b :: rest)) := by
  obtain hb | hb := enter_cases b
  · exact start.reads_goesOn hb later
  · have hstop : ¬ Begins [b] := start.not_begins hb
    rw [readOn_of_bad hb]
    exact .malformed (malformed_single hstop rest) (later .start)

/-- What a decoder reads is what its bytes are read as, together with those it has taken in. -/
theorem reads (h : Reached begun p) (bytes : List UInt8) :
    Reads (begun ++ bytes) (readOn p bytes) := by
  induction bytes generalizing begun p with
  | nil =>
    cases p with
    | between =>
      cases h
      exact .nil
    | inside bits low high more =>
      exact .malformed (.of_stop h.not_complete (Or.inr h.begins) (by simp)) .nil
  | cons b rest ih =>
    cases p with
    | between =>
      cases h
      exact reads_start b ih
    | inside bits low high more =>
      by_cases hb : low ≤ b ∧ b ≤ high
      · exact h.reads_goesOn (step_inside_goesOn hb) ih
      · -- what was taken in is given up, and the byte is read as if it came first
        rw [readOn_inside_bad hb]
        refine .malformed (.of_stop h.not_complete (Or.inr h.begins) ?_) (reads_start b ih)
        intro b' hb'
        obtain rfl := Option.some.inj hb'
        exact h.not_begins (step_inside_bad hb)

end Reached

theorem reads_decode (bytes : List UInt8) : Reads bytes (decode bytes) :=
  Reached.start.reads bytes

theorem Completes.readOn {p : Progress} {tail : List UInt8} {c : Char} (h : Completes p tail c)
    (rest : List UInt8) : readOn p (tail ++ rest) = c :: decode rest := by
  induction h with
  | last h => exact readOn_of_read h rest
  | more h _ ih =>
    rw [List.cons_append, readOn_of_inside h]
    exact ih

theorem decode_encode_append (c : Char) (rest : List UInt8) :
    decode (String.utf8EncodeChar c ++ rest) = c :: decode rest :=
  (completes_iff.mpr rfl).readOn rest

theorem Completes.pieces {p : Progress} {tail : List UInt8} {c : Char} (h : Completes p tail c)
    (rest : List UInt8) :
    piecesOnto [] p (tail ++ rest) = some c :: piecesOnto [] .between rest := by
  induction h with
  | last h =>
    rw [List.cons_append, piecesOnto, h]
    exact piecesOnto_eq_append [some _] .between rest
  | more h _ ih =>
    rw [List.cons_append, piecesOnto, h]
    exact ih

theorem pieces_encode (text : List Char) : pieces (encode text) = text.map some := by
  induction text with
  | nil => rfl
  | cons c text ih =>
    have hencode : encode (c :: text) = String.utf8EncodeChar c ++ encode text := rfl
    rw [pieces, hencode, (completes_iff.mpr rfl).pieces, List.map_cons, ← ih, pieces]

theorem decode_encode (text : List Char) : decode (encode text) = text := by
  rw [decode, pieces_encode, List.map_map]
  exact List.map_id _

/-- Text that is encoded is well-formed. -/
theorem decode?_encode (text : List Char) : decode? (encode text) = some text := by
  have hpieces (text : List Char) : (text.map some).mapM id = some text := by
    induction text with
    | nil => rfl
    | cons c text ih => simp [ih]
  rw [decode?, pieces_encode, hpieces]

theorem Malformed.length_le {piece rest piece' rest' : List UInt8} (h : Malformed piece rest)
    (h' : Malformed piece' rest') (heq : piece ++ rest = piece' ++ rest') :
    piece'.length ≤ piece.length := by
  rcases h'.begun with hone | ⟨_, hbegins⟩
  · rcases h.begun with h | ⟨h, _⟩
    · omega
    · have := List.length_pos_of_ne_nil h
      omega
  · exact h.longest piece' (heq ▸ List.prefix_append _ _) hbegins

namespace Reads

variable {bytes : List UInt8} {text : List Char}

theorem eq_nil (h : Reads [] text) : text = [] := by
  generalize hb : ([] : List UInt8) = bytes at h
  cases h with
  | nil => rfl
  | char c next =>
    have hnil := (List.append_eq_nil_iff.mp hb.symm).1
    exact absurd hnil String.utf8EncodeChar_ne_nil
  | malformed h next =>
    obtain ⟨rfl, rfl⟩ := List.append_eq_nil_iff.mp hb.symm
    simpa using h.begun

theorem of_char {c : Char} {rest : List UInt8}
    (h : Reads (String.utf8EncodeChar c ++ rest) text) :
    ∃ text', text = c :: text' ∧ Reads rest text' := by
  generalize hb : String.utf8EncodeChar c ++ rest = bytes at h
  cases h with
  | nil => exact absurd (List.append_eq_nil_iff.mp hb).1 String.utf8EncodeChar_ne_nil
  | @char c' rest' text' next =>
    have hdecode := decode_encode_append c rest
    rw [hb, decode_encode_append] at hdecode
    obtain rfl := (List.cons.inj hdecode).1
    exact ⟨text', rfl, List.append_cancel_left hb ▸ next⟩
  | malformed h next => exact absurd (hb ▸ List.prefix_append _ _) (h.unreadable c)

theorem of_malformed {piece rest : List UInt8} (hm : Malformed piece rest)
    (h : Reads (piece ++ rest) text) : ∃ text', text = replacement :: text' ∧ Reads rest text' := by
  generalize hb : piece ++ rest = bytes at h
  cases h with
  | nil =>
    obtain ⟨rfl, rfl⟩ := List.append_eq_nil_iff.mp hb
    simpa using hm.begun
  | char c next => exact absurd (hb ▸ List.prefix_append _ _) (hm.unreadable c)
  | @malformed piece' rest' text' hm' next =>
    have hlength := Nat.le_antisymm (hm'.length_le hm hb.symm) (hm.length_le hm' hb)
    obtain ⟨rfl, rfl⟩ := List.append_inj hb hlength
    exact ⟨text', rfl, next⟩

theorem unique {text' : List Char} (h : Reads bytes text) (h' : Reads bytes text') :
    text = text' := by
  induction h generalizing text' with
  | nil => exact h'.eq_nil.symm
  | char c next ih =>
    obtain ⟨text', rfl, next'⟩ := h'.of_char
    rw [ih next']
  | malformed hm next ih =>
    obtain ⟨text', rfl, next'⟩ := h'.of_malformed hm
    rw [ih next']

end Reads

theorem reads_iff {bytes : List UInt8} {text : List Char} :
    Reads bytes text ↔ decode bytes = text :=
  ⟨fun h => (reads_decode bytes).unique h, fun h => h ▸ reads_decode bytes⟩

end BuildDialect.Utf8
