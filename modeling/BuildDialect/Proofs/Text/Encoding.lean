import BuildDialect.Text.Utf8
import Mathlib.Data.List.Basic

/-!
The bytes of characters. What a decoder reads as one character is just what the character is
written as, whether that is one byte or up to four.
-/
namespace BuildDialect.Utf8

inductive Lead (b : UInt8) : Prop
  | ascii (h : b.toNat < 0x80)
  | two (h : 0xC2 ≤ b.toNat ∧ b.toNat < 0xE0)
  | three (h : 0xE0 ≤ b.toNat ∧ b.toNat < 0xF0)
  | four (h : 0xF0 ≤ b.toNat ∧ b.toNat < 0xF5)
  /-- No character begins with the byte. -/
  | bad (h : 0x80 ≤ b.toNat ∧ b.toNat < 0xC2 ∨ 0xF5 ≤ b.toNat)

theorem lead (b : UInt8) : Lead b := by
  by_cases hascii : b.toNat < 0x80
  · exact .ascii hascii
  by_cases htwo : 0xC2 ≤ b.toNat ∧ b.toNat < 0xE0
  · exact .two htwo
  by_cases hthree : 0xE0 ≤ b.toNat ∧ b.toNat < 0xF0
  · exact .three hthree
  by_cases hfour : 0xF0 ≤ b.toNat ∧ b.toNat < 0xF5
  · exact .four hfour
  · exact .bad (by omega)

theorem enter_ascii {b : UInt8} (h : b.toNat < 0x80) :
    enter b = ([some (Char.ofNat b.toNat)], .between) := by
  have hb : b < 0x80 := UInt8.lt_iff_toNat_lt.mpr h
  rw [enter, if_pos hb]

theorem enter_two {b : UInt8} (h : 0xC2 ≤ b.toNat ∧ b.toNat < 0xE0) :
    enter b = ([], .inside (b.toNat - 0xC0) 0x80 0xBF 0) := by
  unfold enter
  simp only [UInt8.lt_iff_toNat_lt, UInt8.reduceToNat]
  rw [if_neg (by omega), if_neg (by omega), if_pos h.2]

theorem enter_three {b : UInt8} (h : 0xE0 ≤ b.toNat ∧ b.toNat < 0xF0) :
    enter b = ([], .inside (b.toNat - 0xE0) (if b.toNat = 0xE0 then 0xA0 else 0x80)
      (if b.toNat = 0xED then 0x9F else 0xBF) 1) := by
  unfold enter
  simp only [UInt8.lt_iff_toNat_lt, ← UInt8.toNat_inj, UInt8.reduceToNat]
  rw [if_neg (by omega), if_neg (by omega), if_neg (by omega)]
  by_cases he : b.toNat = 0xE0
  · simp [he]
  by_cases hd : b.toNat = 0xED
  · simp [hd]
  · simp [he, hd, h.2]

theorem enter_four {b : UInt8} (h : 0xF0 ≤ b.toNat ∧ b.toNat < 0xF5) :
    enter b = ([], .inside (b.toNat - 0xF0) (if b.toNat = 0xF0 then 0x90 else 0x80)
      (if b.toNat = 0xF4 then 0x8F else 0xBF) 2) := by
  unfold enter
  simp only [UInt8.lt_iff_toNat_lt, ← UInt8.toNat_inj, UInt8.reduceToNat]
  rw [if_neg (by omega), if_neg (by omega), if_neg (by omega), if_neg (by omega),
    if_neg (by omega), if_neg (by omega)]
  by_cases hz : b.toNat = 0xF0
  · simp [hz]
  by_cases hf : b.toNat = 0xF4
  · simp [hf]
  · have : b.toNat < 0xF4 := by omega
    simp [hz, hf, this]

theorem enter_bad {b : UInt8} (h : 0x80 ≤ b.toNat ∧ b.toNat < 0xC2 ∨ 0xF5 ≤ b.toNat) :
    enter b = ([none], .between) := by
  unfold enter
  simp only [UInt8.lt_iff_toNat_lt, ← UInt8.toNat_inj, UInt8.reduceToNat]
  rcases h with h | h
  · rw [if_neg (by omega), if_pos (by omega)]
  · rw [if_neg (by omega), if_neg (by omega), if_neg (by omega), if_neg (by omega),
      if_neg (by omega), if_neg (by omega), if_neg (by omega), if_neg (by omega),
      if_neg (by omega)]

/-- A decoder reads these bytes as one character. -/
inductive Completes : Progress → List UInt8 → Char → Prop
  | last {p : Progress} {b : UInt8} {c : Char} (h : p.step b = ([some c], .between)) :
      Completes p [b] c
  | more {p next : Progress} {b : UInt8} {tail : List UInt8} {c : Char}
      (h : p.step b = ([], next)) (rest : Completes next tail c) : Completes p (b :: tail) c

theorem step_inside_last {bits : Nat} {low high b : UInt8} (h : low ≤ b ∧ b ≤ high) :
    (Progress.inside bits low high 0).step b =
      ([some (Char.ofNat (bits * 64 + (b.toNat - 0x80)))], .between) := by
  rw [Progress.step, if_pos h]

theorem step_inside_more {bits more : Nat} {low high b : UInt8} (h : low ≤ b ∧ b ≤ high) :
    (Progress.inside bits low high (more + 1)).step b =
      ([], .inside (bits * 64 + (b.toNat - 0x80)) 0x80 0xBF more) := by
  rw [Progress.step, if_pos h]

theorem step_inside_bad {bits more : Nat} {low high b : UInt8} (h : ¬ (low ≤ b ∧ b ≤ high)) :
    (Progress.inside bits low high more).step b = (none :: (enter b).1, (enter b).2) := by
  rw [Progress.step.eq_def]
  exact if_neg h

theorem completes_last_iff {bits : Nat} {low high : UInt8} {tail : List UInt8} {c : Char} :
    Completes (.inside bits low high 0) tail c ↔ ∃ b, tail = [b] ∧ (low ≤ b ∧ b ≤ high) ∧
      c = Char.ofNat (bits * 64 + (b.toNat - 0x80)) := by
  constructor
  · intro h
    cases h with
    | @last _ b _ h =>
      by_cases hb : low ≤ b ∧ b ≤ high
      · rw [step_inside_last hb] at h
        have hc := List.cons.inj (Prod.mk.inj h).1
        exact ⟨b, rfl, hb, (Option.some.inj hc.1).symm⟩
      · simp [step_inside_bad hb] at h
    | @more _ _ b _ _ h =>
      by_cases hb : low ≤ b ∧ b ≤ high
      · simp [step_inside_last hb] at h
      · simp [step_inside_bad hb] at h
  · rintro ⟨b, rfl, hb, hc⟩
    rw [hc]
    exact .last (step_inside_last hb)

theorem completes_more_iff {bits more : Nat} {low high : UInt8} {tail : List UInt8} {c : Char} :
    Completes (.inside bits low high (more + 1)) tail c ↔
      ∃ b rest, tail = b :: rest ∧ (low ≤ b ∧ b ≤ high) ∧
        Completes (.inside (bits * 64 + (b.toNat - 0x80)) 0x80 0xBF more) rest c := by
  constructor
  · intro h
    cases h with
    | @last _ b _ h =>
      by_cases hb : low ≤ b ∧ b ≤ high
      · simp [step_inside_more hb] at h
      · simp [step_inside_bad hb] at h
    | @more _ _ b _ _ h rest =>
      by_cases hb : low ≤ b ∧ b ≤ high
      · rw [step_inside_more hb] at h
        obtain ⟨_, rfl⟩ := Prod.mk.inj h
        exact ⟨b, _, rfl, hb, rest⟩
      · simp [step_inside_bad hb] at h
  · rintro ⟨b, rest, rfl, hb, h⟩
    exact .more (step_inside_more hb) h

theorem encode_ofNat {n : Nat} (h : n.isValidChar) : String.utf8EncodeChar (Char.ofNat n) =
    if n ≤ 0x7F then [UInt8.ofNat n]
    else if n ≤ 0x7FF then [UInt8.ofNat (n / 64 % 32 + 192), UInt8.ofNat (n % 64 + 128)]
    else if n ≤ 0xFFFF then [UInt8.ofNat (n / 4096 % 16 + 224), UInt8.ofNat (n / 64 % 64 + 128),
      UInt8.ofNat (n % 64 + 128)]
    else [UInt8.ofNat (n / 262144 % 8 + 240), UInt8.ofNat (n / 4096 % 64 + 128),
      UInt8.ofNat (n / 64 % 64 + 128), UInt8.ofNat (n % 64 + 128)] := by
  have hval : (Char.ofNat n).val.toNat = n := by
    rw [Char.ofNat, dif_pos h]
    rfl
  rw [String.utf8EncodeChar, hval]

theorem ofNat_eq {n : Nat} {b : UInt8} (h : n = b.toNat) : UInt8.ofNat n = b := by
  rw [h, UInt8.ofNat_toNat]

theorem encode_one {b : UInt8} (h : b.toNat < 0x80) :
    String.utf8EncodeChar (Char.ofNat b.toNat) = [b] := by
  rw [encode_ofNat (Or.inl (by omega)), if_pos (by omega), UInt8.ofNat_toNat]

theorem encode_two {a b : UInt8} (ha : 0xC2 ≤ a.toNat ∧ a.toNat < 0xE0)
    (hb : 0x80 ≤ b.toNat ∧ b.toNat ≤ 0xBF) :
    String.utf8EncodeChar (Char.ofNat ((a.toNat - 0xC0) * 64 + (b.toNat - 0x80))) = [a, b] := by
  rw [encode_ofNat (Or.inl (by omega)), if_neg (by omega), if_pos (by omega),
    ofNat_eq (b := a) (by omega), ofNat_eq (b := b) (by omega)]

theorem encode_three {a b c : UInt8} (ha : 0xE0 ≤ a.toNat ∧ a.toNat < 0xF0)
    (hb : 0x80 ≤ b.toNat ∧ b.toNat ≤ 0xBF) (hlow : a.toNat = 0xE0 → 0xA0 ≤ b.toNat)
    (hhigh : a.toNat = 0xED → b.toNat ≤ 0x9F) (hc : 0x80 ≤ c.toNat ∧ c.toNat ≤ 0xBF) :
    String.utf8EncodeChar (Char.ofNat (((a.toNat - 0xE0) * 64 + (b.toNat - 0x80)) * 64 +
      (c.toNat - 0x80))) = [a, b, c] := by
  have hvalid : (((a.toNat - 0xE0) * 64 + (b.toNat - 0x80)) * 64 +
      (c.toNat - 0x80)).isValidChar := by
    by_cases h : a.toNat ≤ 0xED
    · exact Or.inl (by omega)
    · exact Or.inr (by omega)
  rw [encode_ofNat hvalid, if_neg (by omega), if_neg (by omega), if_pos (by omega),
    ofNat_eq (b := a) (by omega), ofNat_eq (b := b) (by omega), ofNat_eq (b := c) (by omega)]

theorem encode_four {a b c d : UInt8} (ha : 0xF0 ≤ a.toNat ∧ a.toNat < 0xF5)
    (hb : 0x80 ≤ b.toNat ∧ b.toNat ≤ 0xBF) (hlow : a.toNat = 0xF0 → 0x90 ≤ b.toNat)
    (hhigh : a.toNat = 0xF4 → b.toNat ≤ 0x8F) (hc : 0x80 ≤ c.toNat ∧ c.toNat ≤ 0xBF)
    (hd : 0x80 ≤ d.toNat ∧ d.toNat ≤ 0xBF) :
    String.utf8EncodeChar (Char.ofNat ((((a.toNat - 0xF0) * 64 + (b.toNat - 0x80)) * 64 +
      (c.toNat - 0x80)) * 64 + (d.toNat - 0x80))) = [a, b, c, d] := by
  rw [encode_ofNat (Or.inr (by omega)), if_neg (by omega), if_neg (by omega), if_neg (by omega),
    ofNat_eq (b := a) (by omega), ofNat_eq (b := b) (by omega), ofNat_eq (b := c) (by omega),
    ofNat_eq (b := d) (by omega)]

theorem second_three {a b : UInt8} : ((if a.toNat = 0xE0 then 0xA0 else 0x80) ≤ b ∧
      b ≤ if a.toNat = 0xED then 0x9F else 0xBF) ↔
    (0x80 ≤ b.toNat ∧ b.toNat ≤ 0xBF) ∧ (a.toNat = 0xE0 → 0xA0 ≤ b.toNat) ∧
      (a.toNat = 0xED → b.toNat ≤ 0x9F) := by
  split_ifs <;> simp only [UInt8.le_iff_toNat_le, UInt8.reduceToNat] <;> omega

theorem second_four {a b : UInt8} : ((if a.toNat = 0xF0 then 0x90 else 0x80) ≤ b ∧
      b ≤ if a.toNat = 0xF4 then 0x8F else 0xBF) ↔
    (0x80 ≤ b.toNat ∧ b.toNat ≤ 0xBF) ∧ (a.toNat = 0xF0 → 0x90 ≤ b.toNat) ∧
      (a.toNat = 0xF4 → b.toNat ≤ 0x8F) := by
  split_ifs <;> simp only [UInt8.le_iff_toNat_le, UInt8.reduceToNat] <;> omega

theorem Completes.encodes {bytes : List UInt8} {c : Char} (h : Completes .between bytes c) :
    bytes = String.utf8EncodeChar c := by
  obtain ⟨b, tail, rfl, hb⟩ : ∃ b tail, bytes = b :: tail ∧
      (enter b = ([some c], .between) ∧ tail = [] ∨
        ∃ next, enter b = ([], next) ∧ Completes next tail c) := by
    cases h with
    | last h => exact ⟨_, _, rfl, Or.inl ⟨h, rfl⟩⟩
    | more h rest => exact ⟨_, _, rfl, Or.inr ⟨_, h, rest⟩⟩
  cases lead b with
  | ascii hr =>
    rw [enter_ascii hr] at hb
    obtain ⟨hc, rfl⟩ | ⟨next, hnext, _⟩ := hb
    · rw [← Option.some.inj (List.cons.inj (Prod.mk.inj hc).1).1, encode_one hr]
    · simp at hnext
  | two hr =>
    rw [enter_two hr] at hb
    obtain ⟨hc, _⟩ | ⟨next, hnext, hrest⟩ := hb
    · simp at hc
    · obtain ⟨_, rfl⟩ := Prod.mk.inj hnext
      obtain ⟨b₁, rfl, h₁, hc⟩ := completes_last_iff.mp hrest
      simp only [UInt8.le_iff_toNat_le, UInt8.reduceToNat] at h₁
      rw [hc, encode_two hr h₁]
  | three hr =>
    rw [enter_three hr] at hb
    obtain ⟨hc, _⟩ | ⟨next, hnext, hrest⟩ := hb
    · simp at hc
    · obtain ⟨_, rfl⟩ := Prod.mk.inj hnext
      obtain ⟨b₁, tail, rfl, h₁, hrest⟩ := completes_more_iff.mp hrest
      obtain ⟨b₂, rfl, h₂, hc⟩ := completes_last_iff.mp hrest
      simp only [UInt8.le_iff_toNat_le, UInt8.reduceToNat] at h₂
      obtain ⟨hwide, hlow, hhigh⟩ := second_three.mp h₁
      rw [hc, encode_three hr hwide hlow hhigh h₂]
  | four hr =>
    rw [enter_four hr] at hb
    obtain ⟨hc, _⟩ | ⟨next, hnext, hrest⟩ := hb
    · simp at hc
    · obtain ⟨_, rfl⟩ := Prod.mk.inj hnext
      obtain ⟨b₁, tail, rfl, h₁, hrest⟩ := completes_more_iff.mp hrest
      obtain ⟨b₂, tail, rfl, h₂, hrest⟩ := completes_more_iff.mp hrest
      obtain ⟨b₃, rfl, h₃, hc⟩ := completes_last_iff.mp hrest
      simp only [UInt8.le_iff_toNat_le, UInt8.reduceToNat] at h₂ h₃
      obtain ⟨hwide, hlow, hhigh⟩ := second_four.mp h₁
      rw [hc, encode_four hr hwide hlow hhigh h₂ h₃]
  | bad hr =>
    rw [enter_bad hr] at hb
    obtain ⟨hc, _⟩ | ⟨next, hnext, _⟩ := hb
    · simp at hc
    · simp at hnext

theorem toNat_ofNat {n : Nat} (h : n < 256) : (UInt8.ofNat n).toNat = n := by
  rw [UInt8.toNat_ofNat']
  exact Nat.mod_eq_of_lt h

theorem completes_ofNat {n : Nat} (h : n.isValidChar) :
    Completes .between (String.utf8EncodeChar (Char.ofNat n)) (Char.ofNat n) := by
  rw [encode_ofNat h]
  rw [Nat.isValidChar] at h
  split_ifs with h₁ h₂ h₃
  · have hb := toNat_ofNat (n := n) (by omega)
    refine .last ?_
    rw [Progress.step, enter_ascii (by omega), hb]
  · have ha := toNat_ofNat (n := n / 64 % 32 + 192) (by omega)
    have hb := toNat_ofNat (n := n % 64 + 128) (by omega)
    refine .more (enter_two (by omega)) (completes_last_iff.mpr ⟨_, rfl, ?_, ?_⟩)
    · simp only [UInt8.le_iff_toNat_le, UInt8.reduceToNat]
      omega
    · refine congrArg Char.ofNat ?_
      omega
  · have ha := toNat_ofNat (n := n / 4096 % 16 + 224) (by omega)
    have hb := toNat_ofNat (n := n / 64 % 64 + 128) (by omega)
    have hc := toNat_ofNat (n := n % 64 + 128) (by omega)
    refine .more (enter_three (by omega))
      (completes_more_iff.mpr ⟨_, _, rfl, second_three.mpr ?_,
        completes_last_iff.mpr ⟨_, rfl, ?_, ?_⟩⟩)
    · omega
    · simp only [UInt8.le_iff_toNat_le, UInt8.reduceToNat]
      omega
    · refine congrArg Char.ofNat ?_
      omega
  · have ha := toNat_ofNat (n := n / 262144 % 8 + 240) (by omega)
    have hb := toNat_ofNat (n := n / 4096 % 64 + 128) (by omega)
    have hc := toNat_ofNat (n := n / 64 % 64 + 128) (by omega)
    have hd := toNat_ofNat (n := n % 64 + 128) (by omega)
    refine .more (enter_four (by omega))
      (completes_more_iff.mpr ⟨_, _, rfl, second_four.mpr ?_,
        completes_more_iff.mpr ⟨_, _, rfl, ?_, completes_last_iff.mpr ⟨_, rfl, ?_, ?_⟩⟩⟩)
    · omega
    · simp only [UInt8.le_iff_toNat_le, UInt8.reduceToNat]
      omega
    · simp only [UInt8.le_iff_toNat_le, UInt8.reduceToNat]
      omega
    · refine congrArg Char.ofNat ?_
      omega

/-- A decoder reads the bytes of a character as that character, and no other bytes. -/
theorem completes_iff {bytes : List UInt8} {c : Char} :
    Completes .between bytes c ↔ bytes = String.utf8EncodeChar c := by
  refine ⟨Completes.encodes, ?_⟩
  rintro rfl
  have h := completes_ofNat (n := c.toNat) c.valid
  rwa [Char.ofNat_toNat] at h

end BuildDialect.Utf8
