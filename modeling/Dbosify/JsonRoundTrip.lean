/-
`json`, there and back.

What `dumps` writes, `loads` reads as the value with its keys sorted
(`loads_dumps`): each scanner takes exactly what the writer wrote, whatever
follows, and the bytes are ASCII.
-/
import Dbosify.JsonText

namespace Py.Json

/-! ## Strings -/

theorem hexValue_hexDigit {n : Nat} (h : n < 16) : hexValue (hexDigit n) = some n := by
  have hall : ∀ m : Fin 16, hexValue (hexDigit m) = some m.val := by decide
  exact hall ⟨n, h⟩

theorem hexUnit_hexDigit {n : Nat} (h : n < 0x10000) :
    hexUnit (hexDigit (n / 4096)) (hexDigit (n / 256 % 16)) (hexDigit (n / 16 % 16)) (hexDigit (n % 16)) = some n := by
  simp only [hexUnit, hexValue_hexDigit (show n / 4096 < 16 by omega), hexValue_hexDigit (show n / 256 % 16 < 16 by omega),
    hexValue_hexDigit (show n / 16 % 16 < 16 by omega), hexValue_hexDigit (show n % 16 < 16 by omega),
    Option.bind_eq_bind, Option.bind_some, Option.some.injEq]
  omega

theorem scanString_unicode {n : Nat} (h : n < 0x10000) (hs : isHighSurrogate n = false) (hs' : isLowSurrogate n = false)
    (s : Text) : scanString (unicodeEscape n ++ s) = push (Char.ofNat n) (scanString s) := by
  simp [unicodeEscape, scanString, hexUnit_hexDigit h, hs, hs']

theorem scanString_pair {n m : Nat} (hn : isHighSurrogate n = true) (hm : isLowSurrogate m = true) (s : Text) :
    scanString (unicodeEscape n ++ unicodeEscape m ++ s) = push (joinSurrogates n m) (scanString s) := by
  have hn' : n < 0x10000 := by
    simp only [isHighSurrogate, Bool.and_eq_true, decide_eq_true_eq] at hn
    omega
  have hm' : m < 0x10000 := by
    simp only [isLowSurrogate, Bool.and_eq_true, decide_eq_true_eq] at hm
    omega
  simp [unicodeEscape, scanString, hexUnit_hexDigit hn', hexUnit_hexDigit hm', hn, hm]

theorem eq_ofNat {c : Char} {n : Nat} (h : c.toNat = n) : c = Char.ofNat n := by
  rw [← h, Char.ofNat_toNat]

theorem unescape_shortEscape {c e : Char} (h : shortEscape c = some e) : e ≠ 'u' ∧ unescape e = some c := by
  unfold shortEscape at h
  split at h
  · next hc =>
    cases h
    rcases hc with rfl | rfl <;> exact ⟨by decide, rfl⟩
  split at h
  · next hc => cases h; exact ⟨by decide, hc ▸ rfl⟩
  split at h
  · next hc => cases h; exact ⟨by decide, hc ▸ rfl⟩
  split at h
  · next hc => cases h; exact ⟨by decide, hc ▸ rfl⟩
  split at h
  · next hc => cases h; exact ⟨by decide, eq_ofNat hc ▸ rfl⟩
  split at h
  · next hc => cases h; exact ⟨by decide, eq_ofNat hc ▸ rfl⟩
  · cases h

theorem scanString_short {c e : Char} (h : shortEscape c = some e) (s : Text) :
    scanString ('\\' :: e :: s) = push c (scanString s) := by
  obtain ⟨he, hc⟩ := unescape_shortEscape h
  rw [scanString.eq_def]
  dsimp only
  rw [if_neg (by decide), if_neg (by simp), if_pos he, hc]

theorem scanString_plain {c : Char} (h : shortEscape c = none) (hc : 32 ≤ c.toNat) (s : Text) :
    scanString (c :: s) = push c (scanString s) := by
  have hspecial : ¬ (c = '"' ∨ c = '\\') := by
    intro h'
    rw [shortEscape, if_pos h'] at h
    cases h
  rw [not_or] at hspecial
  rw [scanString.eq_def]
  dsimp only
  rw [if_neg hspecial.1, if_pos hspecial.2, if_neg (by omega)]

/-- Beyond the basic plane, a character is the pair of its surrogates. -/
theorem joinSurrogates_toNat {c : Char} (h : 0x10000 ≤ c.toNat) :
    joinSurrogates (0xd800 + (c.toNat - 0x10000) / 0x400) (0xdc00 + (c.toNat - 0x10000) % 0x400) = c := by
  rw [joinSurrogates]
  have hn : 0x10000 + 0x400 * (0xd800 + (c.toNat - 0x10000) / 0x400 - 0xd800) +
      (0xdc00 + (c.toNat - 0x10000) % 0x400 - 0xdc00) = c.toNat := by omega
  rw [hn, Char.ofNat_toNat]

theorem toNat_bounds (c : Char) : (c.toNat < 0xd800 ∨ 0xe000 ≤ c.toNat) ∧ c.toNat < 0x110000 := by
  have h : c.toNat.isValidChar := c.valid
  simp only [Nat.isValidChar] at h
  omega

/-- A character as it is written is read as that character. -/
theorem scanString_escape (c : Char) (s : Text) : scanString (escape c ++ s) = push c (scanString s) := by
  have hc := toNat_bounds c
  unfold escape
  split
  · next e he => exact scanString_short he s
  · next hnone =>
    split
    · next hp => exact scanString_plain hnone hp.1 s
    · split
      · next hlt =>
        rw [scanString_unicode hlt, Char.ofNat_toNat]
        · simp only [isHighSurrogate, Bool.and_eq_false_iff, decide_eq_false_iff_not]
          omega
        · simp only [isLowSurrogate, Bool.and_eq_false_iff, decide_eq_false_iff_not]
          omega
      · next hge =>
        rw [scanString_pair, joinSurrogates_toNat (by omega)]
        · simp only [isHighSurrogate, Bool.and_eq_true, decide_eq_true_eq]
          omega
        · simp only [isLowSurrogate, Bool.and_eq_true, decide_eq_true_eq]
          omega

/-- So is a string, up to its closing quote. -/
theorem scanString_quoted (l s : Text) : scanString (l.flatMap escape ++ '"' :: s) = .ok (l, s) := by
  induction l with
  | nil => exact scanString_quote s
  | cons c l ih =>
    rw [List.flatMap_cons, List.append_assoc, scanString_escape, ih]
    rfl

/-! ## Numbers -/

/-- What may follow a number: nothing that would be a part of it. -/
def Follows (s : Text) : Prop := ∀ c ∈ s.head?, c.isDigit = false ∧ c ≠ '.' ∧ c ≠ 'e' ∧ c ≠ 'E'

theorem takeWhile_digits {ds s : Text} (hd : ∀ c ∈ ds, c.isDigit = true) (hs : ∀ c ∈ s.head?, c.isDigit = false) :
    (ds ++ s).takeWhile Char.isDigit = ds := by
  rw [List.takeWhile_append_of_pos hd]
  cases s with
  | nil => simp
  | cons c s => simp [hs c rfl]

theorem dropWhile_digits {ds s : Text} (hd : ∀ c ∈ ds, c.isDigit = true) (hs : ∀ c ∈ s.head?, c.isDigit = false) :
    (ds ++ s).dropWhile Char.isDigit = s := by
  rw [List.dropWhile_append_of_pos hd]
  cases s with
  | nil => simp
  | cons c s => simp [hs c rfl]

theorem scanNatural_append {w s : Text} (hw : Natural w) (hs : ∀ c ∈ s.head?, c.isDigit = false) :
    scanNatural (w ++ s) = some (w, s) := by
  rcases hw with rfl | ⟨c, ds, rfl, hc, hdigit, hds⟩
  · rfl
  · rw [List.cons_append, scanNatural, if_neg hc, if_pos hdigit, takeWhile_digits hds hs, dropWhile_digits hds hs]

theorem scanInteger_natural {w s : Text} (hw : Natural w) (hs : ∀ c ∈ s.head?, c.isDigit = false) :
    scanInteger (w ++ s) = some (w, s) := by
  have hscan := scanNatural_append hw hs
  rcases hw with rfl | ⟨c, ds, rfl, hc, hdigit, hds⟩
  · exact hscan
  · have hne : c ≠ '-' := by
      rintro rfl
      exact absurd hdigit (by decide)
    rw [List.cons_append, scanInteger, if_neg hne]
    exact hscan

theorem scanInteger_negative {w s : Text} (hw : Natural w) (hs : ∀ c ∈ s.head?, c.isDigit = false) :
    scanInteger ('-' :: (w ++ s)) = some ('-' :: w, s) := by
  rw [scanInteger, if_pos rfl, scanNatural_append hw hs]
  rfl

theorem scanFraction_nothing {s : Text} (hs : ∀ c ∈ s.head?, c ≠ '.') : scanFraction s = ([], s) := by
  cases s with
  | nil => rfl
  | cons c s => rw [scanFraction, if_neg fun h => hs c rfl h.1]

theorem scanFraction_digits {ds s : Text} (hd : Digits ds) (hs : ∀ c ∈ s.head?, c.isDigit = false) :
    scanFraction ('.' :: (ds ++ s)) = ('.' :: ds, s) := by
  rw [scanFraction, takeWhile_digits hd.2 hs, dropWhile_digits hd.2 hs, if_pos ⟨rfl, hd.1⟩]

theorem scanExponent_nothing {s : Text} (hs : ∀ c ∈ s.head?, c ≠ 'e' ∧ c ≠ 'E') : scanExponent s = ([], s) := by
  cases s with
  | nil => rfl
  | cons c s => rw [scanExponent, if_neg fun h => h.1.elim (hs c rfl).1 (hs c rfl).2]

theorem scanSign_append {sign ds s : Text} (hsign : sign = [] ∨ sign = ['+'] ∨ sign = ['-']) (hd : Digits ds) :
    scanSign (sign ++ (ds ++ s)) = (sign, ds ++ s) := by
  rcases hsign with rfl | rfl | rfl
  · cases ds with
    | nil => exact absurd rfl hd.1
    | cons c ds =>
      have hc : c.isDigit = true := hd.2 c List.mem_cons_self
      have hne : ¬ (c = '+' ∨ c = '-') := by
        rintro (rfl | rfl)
        · exact absurd hc (by decide)
        · exact absurd hc (by decide)
      simp only [List.nil_append, List.cons_append, scanSign, if_neg hne]
  · rfl
  · rfl

theorem scanExponent_digits {e : Char} {sign ds s : Text} (he : e = 'e' ∨ e = 'E')
    (hsign : sign = [] ∨ sign = ['+'] ∨ sign = ['-']) (hd : Digits ds) (hs : ∀ c ∈ s.head?, c.isDigit = false) :
    scanExponent (e :: (sign ++ ds) ++ s) = (e :: (sign ++ ds), s) := by
  rw [List.cons_append, List.append_assoc, scanExponent, scanSign_append hsign hd]
  dsimp only
  rw [takeWhile_digits hd.2 hs, dropWhile_digits hd.2 hs, if_pos ⟨he, hd.1⟩]

namespace FloatLiteral

variable (l : FloatLiteral) {s : Text}

theorem exponent_head (hs : Follows s) : ∀ c ∈ (l.exponent ++ s).head?, c.isDigit = false ∧ c ≠ '.' := by
  rcases l.exponent_digits with h | ⟨e, sign, ds, he, -, -, h⟩
  · rw [h, List.nil_append]
    exact fun c hc => ⟨(hs c hc).1, (hs c hc).2.1⟩
  · rw [h]
    intro c hc
    cases hc
    rcases he with rfl | rfl <;> exact ⟨rfl, by decide⟩

theorem scan_exponent (hs : Follows s) : scanExponent (l.exponent ++ s) = (l.exponent, s) := by
  rcases l.exponent_digits with h | ⟨e, sign, ds, he, hsign, hd, h⟩
  · rw [h, List.nil_append]
    exact scanExponent_nothing fun c hc => (hs c hc).2.2
  · rw [h]
    exact scanExponent_digits he hsign hd fun c hc => (hs c hc).1

theorem fraction_head (hs : Follows s) : ∀ c ∈ (l.fraction ++ (l.exponent ++ s)).head?, c.isDigit = false := by
  rcases l.fraction_digits with h | ⟨ds, -, h⟩
  · rw [h, List.nil_append]
    exact fun c hc => (l.exponent_head hs c hc).1
  · rw [h]
    intro c hc
    cases hc
    rfl

theorem scan_fraction (hs : Follows s) :
    scanFraction (l.fraction ++ (l.exponent ++ s)) = (l.fraction, l.exponent ++ s) := by
  rcases l.fraction_digits with h | ⟨ds, hd, h⟩
  · rw [h, List.nil_append]
    exact scanFraction_nothing fun c hc => (l.exponent_head hs c hc).2
  · rw [h]
    exact scanFraction_digits hd fun c hc => (l.exponent_head hs c hc).1

/-- The integer part of the text. -/
def signed : Text := (if l.negative then ['-'] else []) ++ l.whole

theorem text_eq : l.text = l.signed ++ l.fraction ++ l.exponent := rfl

theorem scan_whole (hs : Follows s) :
    scanInteger (l.signed ++ (l.fraction ++ (l.exponent ++ s))) = some (l.signed, l.fraction ++ (l.exponent ++ s)) := by
  unfold signed
  split
  · exact scanInteger_negative l.whole_natural (l.fraction_head hs)
  · exact scanInteger_natural l.whole_natural (l.fraction_head hs)

/-- The literal of a float is read as that float. -/
theorem scanNumber_text {F : Type} (fl : FloatText F) (hs : Follows s) :
    scanNumber fl (l.text ++ s) = .ok (.float (fl.ofText l.text), s) := by
  rw [text_eq, List.append_assoc, List.append_assoc, scanNumber, l.scan_whole hs]
  dsimp only
  rw [l.scan_fraction hs]
  dsimp only
  rw [l.scan_exponent hs]
  refine if_neg fun h => ?_
  rcases l.isFloat with hf | he
  · exact hf h.1
  · exact he h.2

end FloatLiteral

/-- No digit before the others is a zero. -/
theorem head_toDigits {n : Nat} (h : 0 < n) : ∃ c ds, Nat.toDigits 10 n = c :: ds ∧ c ≠ '0' := by
  induction n using Nat.strongRecOn with
  | _ n ih =>
    rw [Nat.toDigits_eq_if (by omega)]
    split
    · next hlt =>
      have hall : ∀ m : Fin 10, 0 < m.val → Nat.digitChar m ≠ '0' := by decide
      exact ⟨_, [], rfl, hall ⟨n, hlt⟩ h⟩
    · next hge =>
      obtain ⟨c, ds, heq, hc⟩ := ih (n / 10) (by omega) (by omega)
      exact ⟨c, ds ++ [Nat.digitChar (n % 10)], by rw [heq]; rfl, hc⟩

theorem natural_toDigits (n : Nat) : Natural (Nat.toDigits 10 n) := by
  rcases Nat.eq_zero_or_pos n with rfl | h
  · exact .inl rfl
  · obtain ⟨c, ds, heq, hc⟩ := head_toDigits h
    have hall : ∀ d ∈ Nat.toDigits 10 n, d.isDigit = true := fun _ => isDigit_toDigits
    rw [heq] at hall
    exact .inr ⟨c, ds, heq, hc, hall c List.mem_cons_self, fun d hd => hall d (List.mem_cons_of_mem _ hd)⟩

theorem intText_eq (n : Int) : (∃ m : Nat, n = m ∧ intText n = Nat.toDigits 10 m) ∨
    ∃ m : Nat, n = -(m : Int) ∧ intText n = '-' :: Nat.toDigits 10 m := by
  cases n with
  | ofNat n => exact .inl ⟨n, rfl, rfl⟩
  | negSucc n => exact .inr ⟨n + 1, rfl, rfl⟩

theorem intOf_intText {n : Int} (hn : n.natAbs < 10 ^ intMaxStrDigits) : intOf (intText n) = .ok n := by
  rcases intText_eq n with ⟨m, rfl, h⟩ | ⟨m, rfl, h⟩
  · rw [h]
    have hm : Py.int (Nat.toDigits 10 m) = .ok m := (int_toDigits m).2 hn
    obtain ⟨c, ds, heq⟩ : ∃ c ds, Nat.toDigits 10 m = c :: ds := List.exists_cons_of_ne_nil Nat.toDigits_ne_nil
    have hne : c ≠ '-' := by
      rintro rfl
      exact absurd (isDigit_toDigits (n := m) (heq ▸ List.mem_cons_self)) (by decide)
    rw [heq] at hm ⊢
    rw [intOf, if_neg hne, hm]
    rfl
  · rw [h]
    have hm : Py.int (Nat.toDigits 10 m) = .ok m := (int_toDigits m).2 (by simpa using hn)
    rw [intOf, if_pos rfl, hm]
    rfl

theorem Follows.digit {s : Text} (h : Follows s) : ∀ c ∈ s.head?, c.isDigit = false := fun c hc => (h c hc).1

/-- An integer with few enough digits is read as it was written. -/
theorem scanNumber_intText {F : Type} (fl : FloatText F) {n : Int} (hn : n.natAbs < 10 ^ intMaxStrDigits) {s : Text}
    (hs : Follows s) : scanNumber fl (intText n ++ s) = .ok (.int n, s) := by
  have hwhole : scanInteger (intText n ++ s) = some (intText n, s) := by
    rcases intText_eq n with ⟨m, -, h⟩ | ⟨m, -, h⟩
    · rw [h]
      exact scanInteger_natural (natural_toDigits m) hs.digit
    · rw [h]
      exact scanInteger_negative (natural_toDigits m) hs.digit
  rw [scanNumber, hwhole]
  dsimp only
  rw [scanFraction_nothing fun c hc => (hs c hc).2.1]
  dsimp only
  rw [scanExponent_nothing fun c hc => (hs c hc).2.2, if_pos ⟨rfl, rfl⟩, intOf_intText hn]
  rfl

/-! ## Constants -/

variable {F : Type} (fl : FloatText F)

/-- How a number starts. -/
def NumberHead (s : Text) : Prop := ∃ c t, c.isDigit = true ∧ (s = c :: t ∨ s = '-' :: c :: t)

theorem scanAtom_number {s : Text} (h : NumberHead s) : scanAtom fl s = scanNumber fl s := by
  obtain ⟨c, t, hc, h⟩ := h
  have hne : c ≠ 'n' ∧ c ≠ 't' ∧ c ≠ 'f' ∧ c ≠ 'N' ∧ c ≠ 'I' ∧ c ≠ '-' := by
    refine ⟨?_, ?_, ?_, ?_, ?_, ?_⟩ <;> (rintro rfl; exact absurd hc (by decide))
  obtain ⟨h₁, h₂, h₃, h₄, h₅, h₆⟩ := hne
  unfold scanAtom
  rcases h with rfl | rfl
  · simp [words, afterWord, h₁, h₂, h₃, h₄, h₅, h₆]
  · simp [words, afterWord, h₅]

theorem scanAtom_word {w : Text} {v : Json F} (h : (w, v) ∈ words fl) (s : Text) : scanAtom fl (w ++ s) = .ok (v, s) := by
  simp only [words, List.mem_cons, Prod.mk.injEq, List.not_mem_nil, or_false] at h
  rcases h with ⟨rfl, rfl⟩ | ⟨rfl, rfl⟩ | ⟨rfl, rfl⟩ | ⟨rfl, rfl⟩ | ⟨rfl, rfl⟩ | ⟨rfl, rfl⟩ <;>
    simp [scanAtom, words, afterWord]

theorem numberHead_natural {w : Text} (h : Natural w) (s : Text) : NumberHead (w ++ s) ∧ NumberHead ('-' :: (w ++ s)) := by
  rcases h with rfl | ⟨c, ds, rfl, -, hc, -⟩
  · exact ⟨⟨'0', s, rfl, .inl rfl⟩, ⟨'0', s, rfl, .inr rfl⟩⟩
  · exact ⟨⟨c, ds ++ s, hc, .inl rfl⟩, ⟨c, ds ++ s, hc, .inr rfl⟩⟩

theorem numberHead_intText (n : Int) (s : Text) : NumberHead (intText n ++ s) := by
  rcases intText_eq n with ⟨m, -, h⟩ | ⟨m, -, h⟩
  · rw [h]
    exact (numberHead_natural (natural_toDigits m) s).1
  · rw [h]
    exact (numberHead_natural (natural_toDigits m) s).2

theorem numberHead_literal (l : FloatLiteral) (s : Text) : NumberHead (l.text ++ s) := by
  rw [l.text_eq, List.append_assoc, List.append_assoc, FloatLiteral.signed]
  split
  · exact (numberHead_natural l.whole_natural _).2
  · exact (numberHead_natural l.whole_natural _).1

/-- A float is read from its `repr`. -/
theorem scanAtom_repr (x : F) {s : Text} (hs : Follows s) : scanAtom fl (fl.repr x ++ s) = .ok (.float x, s) := by
  rcases fl.repr_reads x with ⟨l, h, hx⟩ | ⟨h, hx⟩ | ⟨h, hx⟩ | ⟨h, hx⟩
  · rw [h, scanAtom_number fl (numberHead_literal l s), l.scanNumber_text fl hs, hx]
  · rw [h, scanAtom_word fl (v := .float fl.nan) (by simp [words]), hx]
  · rw [h, scanAtom_word fl (v := .float fl.infinity) (by simp [words]), hx]
  · rw [h, scanAtom_word fl (v := .float fl.negInfinity) (by simp [words]), hx]

/-! ## Values -/

theorem skipSpace_cons {c : Char} (h : isSpace c = false) (s : Text) : skipSpace (c :: s) = c :: s := by
  rw [skipSpace, List.dropWhile_cons_of_neg (by simp [h])]

/-- The first character of a value. -/
structure Opening (c : Char) : Prop where
  notSpace : isSpace c = false
  notBracket : c ≠ ']'

theorem NumberHead.opening {s : Text} (h : NumberHead s) :
    ∃ c t, s = c :: t ∧ Opening c ∧ c ≠ '"' ∧ c ≠ '[' ∧ c ≠ '{' := by
  obtain ⟨c, t, hc, rfl | rfl⟩ := h
  · refine ⟨c, t, rfl, ⟨?_, ?_⟩, ?_, ?_, ?_⟩
    · simp only [isSpace, Bool.or_eq_false_iff, decide_eq_false_iff_not]
      refine ⟨⟨⟨?_, ?_⟩, ?_⟩, ?_⟩ <;> (rintro rfl; exact absurd hc (by decide))
    all_goals (rintro rfl; exact absurd hc (by decide))
  · exact ⟨'-', c :: t, rfl, ⟨rfl, by decide⟩, by decide, by decide, by decide⟩

theorem repr_opening (x : F) : ∃ c t, fl.repr x = c :: t ∧ Opening c ∧ c ≠ '"' ∧ c ≠ '[' ∧ c ≠ '{' := by
  rcases fl.repr_reads x with ⟨l, h, -⟩ | ⟨h, -⟩ | ⟨h, -⟩ | ⟨h, -⟩
  · have hl := numberHead_literal l []
    rw [List.append_nil] at hl
    exact h ▸ hl.opening
  · exact ⟨'N', ['a', 'N'], h.trans (by simp), ⟨rfl, by decide⟩, by decide, by decide, by decide⟩
  · exact ⟨'I', _, h.trans (by simp; rfl), ⟨rfl, by decide⟩, by decide, by decide, by decide⟩
  · exact ⟨'-', _, h.trans (by simp; rfl), ⟨rfl, by decide⟩, by decide, by decide, by decide⟩

theorem text_opening (v : Json F) : ∃ c t, text fl v = c :: t ∧ Opening c := by
  cases v with
  | null => exact ⟨'n', _, by simp [text]; rfl, rfl, by decide⟩
  | bool b => cases b <;> exact ⟨_, _, by simp [text]; exact ⟨rfl, rfl⟩, rfl, by decide⟩
  | int n =>
    have h := numberHead_intText n []
    rw [List.append_nil] at h
    obtain ⟨c, t, heq, hc, -⟩ := h.opening
    exact ⟨c, t, heq, hc⟩
  | float x =>
    obtain ⟨c, t, heq, hc, -⟩ := repr_opening fl x
    exact ⟨c, t, heq, hc⟩
  | str s => exact ⟨'"', _, rfl, rfl, by decide⟩
  | arr vs => cases vs <;> exact ⟨'[', _, rfl, rfl, by decide⟩
  | obj es => cases es <;> exact ⟨'{', _, rfl, rfl, by decide⟩

theorem scanOnce_atom {n : Nat} {c : Char} {s : Text} (h : c ≠ '"' ∧ c ≠ '[' ∧ c ≠ '{') :
    scanOnce fl (n + 1) (c :: s) = scanAtom fl (c :: s) := by
  rw [scanOnce, if_neg h.1, if_neg h.2.1, if_neg h.2.2]

theorem follows_cons {c : Char} (h : c.isDigit = false ∧ c ≠ '.' ∧ c ≠ 'e' ∧ c ≠ 'E') (s : Text) : Follows (c :: s) := by
  intro d hd
  cases hd
  exact h

theorem follows_items (vs : List (Json F)) (s : Text) : Follows (textItems fl vs ++ s) := by
  cases vs with
  | nil => exact follows_cons (by decide) _
  | cons v vs => exact follows_cons (by decide) _

theorem follows_entries (es : List (String × Json F)) (s : Text) : Follows (textEntries fl es ++ s) := by
  cases es with
  | nil => exact follows_cons (by decide) _
  | cons e es => exact follows_cons (by decide) _

theorem skipSpace_text (v : Json F) (s : Text) : skipSpace (text fl v ++ s) = text fl v ++ s := by
  obtain ⟨c, t, h, hc⟩ := text_opening fl v
  rw [h, List.cons_append, skipSpace_cons hc.notSpace]

theorem textItems_pos (vs : List (Json F)) : 0 < (textItems fl vs).length := by
  cases vs <;> simp [textItems]

theorem textEntries_pos (es : List (String × Json F)) : 0 < (textEntries fl es).length := by
  cases es with
  | nil => simp [textEntries]
  | cons e es => simp [textEntries]

/-- A key is read as it is written, up to its value. -/
theorem scanKey_quoted (k : String) (v : Json F) (s : Text) :
    scanKey (quoted k.toList ++ ':' :: (text fl v ++ s)) = .ok (k, text fl v ++ s) := by
  have hs : scanString (k.toList.flatMap escape ++ ['"'] ++ ':' :: (text fl v ++ s)) = .ok (k.toList, ':' :: (text fl v ++ s)) := by
    rw [List.append_assoc]
    exact scanString_quoted _ _
  rw [quoted, List.cons_append, scanKey]
  simp only [hs, bind, Except.bind]
  rw [skipSpace_cons rfl]
  simp only [skipSpace_text, String.ofList_toList]

theorem scanOnce_items {n : Nat} {s : Text} (h : ∀ c ∈ (skipSpace s).head?, c ≠ ']') :
    scanOnce fl (n + 1) ('[' :: s) = (scanItems fl n (skipSpace s)).map fun r => (.arr r.1, r.2) := by
  rw [scanOnce, if_neg (by decide), if_pos rfl]
  split
  · next s' heq => exact absurd rfl (h ']' (by rw [heq]; rfl))
  · rfl

theorem scanOnce_entries {n : Nat} {s : Text} (h : ∀ c ∈ (skipSpace s).head?, c ≠ '}') :
    scanOnce fl (n + 1) ('{' :: s) =
      (scanEntries fl n (skipSpace s)).map fun r => (.obj (Dict.ofEntries r.1).entries, r.2) := by
  rw [scanOnce, if_neg (by decide), if_neg (by decide), if_pos rfl]
  split
  · next s' heq => exact absurd rfl (h '}' (by rw [heq]; rfl))
  · rfl

theorem scanItems_last {n : Nat} {s t : Text} {v : Json F} (h : scanOnce fl n s = .ok (v, ']' :: t)) :
    scanItems fl (n + 1) s = .ok ([v], t) := by
  rw [scanItems, h]
  simp only [bind, Except.bind, skipSpace_cons (show isSpace ']' = false from rfl)]

theorem scanItems_more {n : Nat} {s t : Text} {v : Json F} (h : scanOnce fl n s = .ok (v, ',' :: t)) :
    scanItems fl (n + 1) s = (scanItems fl n (skipSpace t)).map fun r => (v :: r.1, r.2) := by
  rw [scanItems, h]
  simp only [bind, Except.bind, skipSpace_cons (show isSpace ',' = false from rfl)]
  cases scanItems fl n (skipSpace t) <;> rfl

theorem scanEntries_last {n : Nat} {s t u : Text} {k : String} {v : Json F} (hk : scanKey s = .ok (k, u))
    (h : scanOnce fl n u = .ok (v, '}' :: t)) : scanEntries fl (n + 1) s = .ok ([(k, v)], t) := by
  rw [scanEntries, hk]
  simp only [bind, Except.bind, h, skipSpace_cons (show isSpace '}' = false from rfl)]

theorem scanEntries_more {n : Nat} {s t u : Text} {k : String} {v : Json F} (hk : scanKey s = .ok (k, u))
    (h : scanOnce fl n u = .ok (v, ',' :: t)) :
    scanEntries fl (n + 1) s = (scanEntries fl n (skipSpace t)).map fun r => ((k, v) :: r.1, r.2) := by
  rw [scanEntries, hk]
  simp only [bind, Except.bind, h, skipSpace_cons (show isSpace ',' = false from rfl)]
  cases scanEntries fl n (skipSpace t) <;> rfl

mutual

/-- A value is read as it was written, whatever follows. -/
theorem scanOnce_text : ∀ (v : Json F) {n : Nat} {s : Text}, v.Proper → (text fl v).length < n → Follows s →
    scanOnce fl n (text fl v ++ s) = .ok (v, s)
  | _, 0, _, _, hn, _ => absurd hn (Nat.not_lt_zero _)
  | .null, n + 1, s, _, _, _ => by
    have h := scanAtom_word fl (w := "null".toList) (v := .null) (by simp [words]) s
    rw [← h]
    exact scanOnce_atom fl (by decide)
  | .bool true, n + 1, s, _, _, _ => by
    have h := scanAtom_word fl (w := "true".toList) (v := .bool true) (by simp [words]) s
    rw [← h]
    exact scanOnce_atom fl (by decide)
  | .bool false, n + 1, s, _, _, _ => by
    have h := scanAtom_word fl (w := "false".toList) (v := .bool false) (by simp [words]) s
    rw [← h]
    exact scanOnce_atom fl (by decide)
  | .int i, n + 1, s, hp, _, hs => by
    obtain ⟨c, t, heq, -, hc⟩ := (numberHead_intText i s).opening
    have hatom : scanOnce fl (n + 1) (intText i ++ s) = scanAtom fl (intText i ++ s) := by
      rw [heq]
      exact scanOnce_atom fl hc
    rw [text, hatom, scanAtom_number fl (numberHead_intText i s), scanNumber_intText fl hp hs]
  | .float x, n + 1, s, _, _, hs => by
    obtain ⟨c, t, heq, -, hc⟩ := repr_opening fl x
    have hatom : scanOnce fl (n + 1) (fl.repr x ++ s) = scanAtom fl (fl.repr x ++ s) := by
      rw [heq]
      exact scanOnce_atom fl hc
    rw [text, hatom, scanAtom_repr fl x hs]
  | .str k, n + 1, s, _, _, _ => by
    rw [text, quoted, List.cons_append, List.append_assoc, scanOnce, if_pos rfl]
    rw [show [('"' : Char)] ++ s = '"' :: s from rfl, scanString_quoted]
    simp [Except.map]
  | .arr [], n + 1, s, _, _, _ => by
    rw [text, List.cons_append, scanOnce, if_neg (by decide), if_pos rfl, List.cons_append, skipSpace_cons rfl]
    rfl
  | .arr (v :: vs), n + 1, s, hp, hn, _ => by
    have hlen : (text fl v).length + (textItems fl vs).length < n := by
      simp only [text, List.length_cons, List.length_append] at hn
      omega
    have hitems := scanItems_text (v :: vs) hp (s := s) hlen
    have hspace := skipSpace_text fl v (textItems fl vs ++ s)
    rw [text, List.cons_append, List.append_assoc, scanOnce_items, hspace, hitems]
    · rfl
    · obtain ⟨c, t, heq, hc⟩ := text_opening fl v
      rw [hspace, heq]
      intro d hd
      cases hd
      exact hc.notBracket
  | .obj [], n + 1, s, _, _, _ => by
    rw [text, List.cons_append, scanOnce, if_neg (by decide), if_neg (by decide), if_pos rfl, List.cons_append,
      skipSpace_cons rfl]
    rfl
  | .obj ((k, v) :: es), n + 1, s, hp, hn, _ => by
    have hlen : (text fl v).length + (textEntries fl es).length < n := by
      simp only [text, List.length_cons, List.length_append] at hn
      omega
    have hentries := scanEntries_text ((k, v) :: es) hp.2 (s := s) hlen
    have hspace : skipSpace (quoted k.toList ++ ':' :: (text fl v ++ (textEntries fl es ++ s))) =
        quoted k.toList ++ ':' :: (text fl v ++ (textEntries fl es ++ s)) := skipSpace_cons rfl _
    have hdict : (Dict.ofEntries ((k, v) :: es)).entries = (k, v) :: es := Dict.entries_ofEntries hp.1
    rw [text, List.cons_append, List.append_assoc, List.cons_append, List.append_assoc, scanOnce_entries, hspace, hentries]
    · exact congrArg (fun es' => Except.ok (Json.obj es', s)) hdict
    · rw [hspace]
      intro d hd
      cases hd
      decide

theorem scanItems_text : ∀ (vs : List (Json F)) {n : Nat} {s : Text}, ProperItems vs →
    match vs with
    | [] => True
    | v :: vs => (text fl v).length + (textItems fl vs).length < n →
      scanItems fl n (text fl v ++ (textItems fl vs ++ s)) = .ok (v :: vs, s)
  | [], _, _, _ => trivial
  | v :: vs, 0, s, hp => fun hn => absurd hn (Nat.not_lt_zero _)
  | [v], n + 1, s, hp => by
    intro hn
    have hv := scanOnce_text v hp.1 (n := n) (by simp [textItems] at hn; omega) (follows_items fl [] s)
    exact scanItems_last fl hv
  | v :: w :: vs, n + 1, s, hp => by
    intro hn
    simp only [textItems, List.length_cons, List.length_append] at hn
    have hv := scanOnce_text v hp.1 (n := n) (by omega) (follows_items fl (w :: vs) s)
    have hvs := scanItems_text (w :: vs) hp.2 (n := n) (s := s) (by omega)
    have htext : textItems fl (w :: vs) ++ s = ',' :: (text fl w ++ (textItems fl vs ++ s)) := by simp [textItems]
    rw [htext] at hv ⊢
    rw [scanItems_more fl hv, skipSpace_text, hvs]
    rfl

theorem scanEntries_text : ∀ (es : List (String × Json F)) {n : Nat} {s : Text}, ProperEntries es →
    match es with
    | [] => True
    | (k, v) :: es => (text fl v).length + (textEntries fl es).length < n →
      scanEntries fl n (quoted k.toList ++ ':' :: (text fl v ++ (textEntries fl es ++ s))) = .ok ((k, v) :: es, s)
  | [], _, _, _ => trivial
  | (k, v) :: es, 0, s, hp => fun hn => absurd hn (Nat.not_lt_zero _)
  | [(k, v)], n + 1, s, hp => by
    intro hn
    have hv := scanOnce_text v hp.1 (n := n) (by simp [textEntries] at hn; omega) (follows_entries fl [] s)
    exact scanEntries_last fl (scanKey_quoted fl k v _) hv
  | (k, v) :: (k', w) :: es, n + 1, s, hp => by
    intro hn
    simp only [textEntries, List.length_cons, List.length_append] at hn
    have hv := scanOnce_text v hp.1 (n := n) (by omega) (follows_entries fl ((k', w) :: es) s)
    have hes := scanEntries_text ((k', w) :: es) hp.2 (n := n) (s := s) (by omega)
    have htext : textEntries fl ((k', w) :: es) ++ s =
        ',' :: (quoted k'.toList ++ ':' :: (text fl w ++ (textEntries fl es ++ s))) := by simp [textEntries]
    have hspace : skipSpace (quoted k'.toList ++ ':' :: (text fl w ++ (textEntries fl es ++ s))) =
        quoted k'.toList ++ ':' :: (text fl w ++ (textEntries fl es ++ s)) := skipSpace_cons rfl _
    rw [htext] at hv ⊢
    rw [scanEntries_more fl (scanKey_quoted fl k v _) hv, hspace, hes]
    rfl

end

/-! ## Texts -/

/-- **A proper value is read from its text.** -/
theorem loadsText_text {v : Json F} (h : v.Proper) : loadsText fl (text fl v) = .ok v := by
  have hscan := scanOnce_text fl v h (n := 2 * (text fl v).length + 1) (by omega) (s := []) (fun c hc => by cases hc)
  have hspace := skipSpace_text fl v []
  rw [List.append_nil] at hscan hspace
  rw [loadsText, hspace, hscan]
  rfl

/-! ### Sorted keys -/

theorem sortedItems_eq (vs : List (Json F)) : sortedItems vs = vs.map sorted := by
  induction vs with
  | nil => rfl
  | cons v vs ih => rw [sortedItems, ih, List.map_cons]

theorem sortedEntries_eq (es : List (String × Json F)) : sortedEntries es = es.map fun e => (e.1, e.2.sorted) := by
  induction es with
  | nil => rfl
  | cons e es ih => rw [sortedEntries, ih, List.map_cons]

theorem properItems_iff {vs : List (Json F)} : ProperItems vs ↔ ∀ v ∈ vs, v.Proper := by
  induction vs with
  | nil => simp [ProperItems]
  | cons v vs ih => simp [ProperItems, ih]

theorem properEntries_iff {es : List (String × Json F)} : ProperEntries es ↔ ∀ e ∈ es, e.2.Proper := by
  induction es with
  | nil => simp [ProperEntries]
  | cons e es ih => simp [ProperEntries, ih]

theorem keys_sorted (es : List (String × Json F)) :
    ((Keyed.sort Prod.fst (sortedEntries es)).map Prod.fst).Perm (es.map Prod.fst) := by
  have h : ((Keyed.sort Prod.fst (sortedEntries es)).map Prod.fst).Perm ((sortedEntries es).map Prod.fst) :=
    (Keyed.sort_perm _).map Prod.fst
  rw [sortedEntries_eq] at h ⊢
  rwa [List.map_map] at h

mutual

theorem proper_sorted : ∀ {v : Json F}, v.Proper → v.sorted.Proper
  | .null, _ | .bool _, _ | .float _, _ | .str _, _ => trivial
  | .int _, h => h
  | .arr vs, h => properItems_sorted vs h
  | .obj es, h => by
    refine ⟨(keys_sorted es).nodup_iff.2 h.1, properEntries_iff.2 fun e he => ?_⟩
    exact properEntries_iff.1 (properEntries_sorted es h.2) e ((Keyed.sort_perm _).mem_iff.1 he)

theorem properItems_sorted : ∀ (vs : List (Json F)), ProperItems vs → ProperItems (sortedItems vs)
  | [], _ => trivial
  | _ :: vs, h => ⟨proper_sorted h.1, properItems_sorted vs h.2⟩

theorem properEntries_sorted : ∀ (es : List (String × Json F)), ProperEntries es → ProperEntries (sortedEntries es)
  | [], _ => trivial
  | _ :: es, h => ⟨proper_sorted h.1, properEntries_sorted es h.2⟩

end

mutual

/-- Sorted keys stay as they are. -/
@[simp] theorem sorted_sorted : ∀ v : Json F, v.sorted.sorted = v.sorted
  | .null | .bool _ | .int _ | .float _ | .str _ => rfl
  | .arr vs => congrArg Json.arr (sortedItems_sorted vs)
  | .obj es => by
    have hmap : (Keyed.sort Prod.fst (sortedEntries es)).map (fun e : String × Json F => (e.1, e.2.sorted)) =
        Keyed.sort Prod.fst ((sortedEntries es).map fun e => (e.1, e.2.sorted)) :=
      Keyed.sort_map (fun e : String × Json F => (rfl : (e.1, e.2.sorted).fst = e.fst)) _
    rw [← sortedEntries_eq, ← sortedEntries_eq, sortedEntries_sorted es] at hmap
    rw [sorted, sorted, hmap, Keyed.sort_sort]

theorem sortedItems_sorted : ∀ vs : List (Json F), sortedItems (sortedItems vs) = sortedItems vs
  | [] => rfl
  | v :: vs => by rw [sortedItems, sortedItems, sorted_sorted v, sortedItems_sorted vs]

theorem sortedEntries_sorted : ∀ es : List (String × Json F), sortedEntries (sortedEntries es) = sortedEntries es
  | [] => rfl
  | (k, v) :: es => by rw [sortedEntries, sortedEntries, sorted_sorted v, sortedEntries_sorted es]

end

/-! ### ASCII -/

/-- A character `dumps` may write. -/
def Printable (c : Char) : Prop := 32 ≤ c.toNat ∧ c.toNat < 127

theorem printable_hexDigit {n : Nat} (h : n < 16) : Printable (hexDigit n) := by
  have hall : ∀ m : Fin 16, 32 ≤ (hexDigit m).toNat ∧ (hexDigit m).toNat < 127 := by decide
  exact hall ⟨n, h⟩

theorem printable_unicodeEscape {n : Nat} (h : n < 0x10000) : ∀ c ∈ unicodeEscape n, Printable c := by
  simp only [unicodeEscape, List.mem_cons, List.not_mem_nil, or_false]
  rintro c (rfl | rfl | rfl | rfl | rfl | rfl)
  · exact ⟨by decide, by decide⟩
  · exact ⟨by decide, by decide⟩
  all_goals exact printable_hexDigit (by omega)

theorem printable_shortEscape {c e : Char} (h : shortEscape c = some e) : Printable e := by
  unfold shortEscape at h
  split at h
  · next hc => cases h; rcases hc with rfl | rfl <;> exact ⟨by decide, by decide⟩
  split at h
  · cases h; exact ⟨by decide, by decide⟩
  split at h
  · cases h; exact ⟨by decide, by decide⟩
  split at h
  · cases h; exact ⟨by decide, by decide⟩
  split at h
  · cases h; exact ⟨by decide, by decide⟩
  split at h
  · cases h; exact ⟨by decide, by decide⟩
  · cases h

theorem printable_escape (c : Char) : ∀ d ∈ escape c, Printable d := by
  have hc := toNat_bounds c
  unfold escape
  split
  · next e he =>
    simp only [List.mem_cons, List.not_mem_nil, or_false]
    rintro d (rfl | rfl)
    · exact ⟨by decide, by decide⟩
    · exact printable_shortEscape he
  · split
    · next hp => exact fun d hd => List.mem_singleton.1 hd ▸ hp
    · split
      · next hlt => exact printable_unicodeEscape hlt
      · intro d hd
        rcases List.mem_append.1 hd with hd | hd
        · exact printable_unicodeEscape (by omega) d hd
        · exact printable_unicodeEscape (by omega) d hd

theorem printable_quoted (s : Text) : ∀ c ∈ quoted s, Printable c := by
  intro c hc
  rw [quoted, List.mem_cons, List.mem_append, List.mem_singleton, List.mem_flatMap] at hc
  rcases hc with rfl | ⟨d, -, hc⟩ | rfl
  · exact ⟨by decide, by decide⟩
  · exact printable_escape d c hc
  · exact ⟨by decide, by decide⟩

theorem printable_digit {c : Char} (h : c.isDigit = true) : Printable c := by
  simp only [Char.isDigit, Bool.and_eq_true, decide_eq_true_eq] at h
  have h₁ : 48 ≤ c.toNat := h.1
  have h₂ : c.toNat ≤ 57 := h.2
  exact ⟨by omega, by omega⟩

theorem printable_intText (n : Int) : ∀ c ∈ intText n, Printable c := by
  intro c hc
  rcases intText_eq n with ⟨m, -, h⟩ | ⟨m, -, h⟩
  · rw [h] at hc
    exact printable_digit (isDigit_toDigits hc)
  · rw [h] at hc
    rcases List.mem_cons.1 hc with rfl | hc
    · exact ⟨by decide, by decide⟩
    · exact printable_digit (isDigit_toDigits hc)

theorem FloatLiteral.printable (l : FloatLiteral) : ∀ c ∈ l.text, Printable c := by
  have hwhole : ∀ c ∈ l.whole, Printable c := by
    rcases l.whole_natural with h | ⟨d, ds, h, -, hd, hds⟩
    · rw [h]
      exact fun c hc => List.mem_singleton.1 hc ▸ ⟨by decide, by decide⟩
    · rw [h]
      intro c hc
      rcases List.mem_cons.1 hc with rfl | hc
      · exact printable_digit hd
      · exact printable_digit (hds c hc)
  have hfraction : ∀ c ∈ l.fraction, Printable c := by
    rcases l.fraction_digits with h | ⟨ds, hd, h⟩
    · rw [h]
      exact fun c hc => by cases hc
    · rw [h]
      intro c hc
      rcases List.mem_cons.1 hc with rfl | hc
      · exact ⟨by decide, by decide⟩
      · exact printable_digit (hd.2 c hc)
  have hexponent : ∀ c ∈ l.exponent, Printable c := by
    rcases l.exponent_digits with h | ⟨e, sign, ds, he, hsign, hd, h⟩
    · rw [h]
      exact fun c hc => by cases hc
    · rw [h]
      intro c hc
      rw [List.mem_cons, List.mem_append] at hc
      rcases hc with rfl | hc | hc
      · rcases he with rfl | rfl <;> exact ⟨by decide, by decide⟩
      · rcases hsign with rfl | rfl | rfl
        · cases hc
        · exact List.mem_singleton.1 hc ▸ ⟨by decide, by decide⟩
        · exact List.mem_singleton.1 hc ▸ ⟨by decide, by decide⟩
      · exact printable_digit (hd.2 c hc)
  intro c hc
  simp only [FloatLiteral.text, List.mem_append] at hc
  rcases hc with ((hc | hc) | hc) | hc
  · split at hc
    · exact List.mem_singleton.1 hc ▸ ⟨by decide, by decide⟩
    · cases hc
  · exact hwhole c hc
  · exact hfraction c hc
  · exact hexponent c hc

theorem printable_of_all {s : Text} (h : (s.all fun c => 32 ≤ c.toNat && c.toNat < 127) = true) : ∀ c ∈ s, Printable c := by
  intro c hc
  simpa [Printable] using List.all_eq_true.1 h c hc

theorem printable_repr (x : F) : ∀ c ∈ fl.repr x, Printable c := by
  rcases fl.repr_reads x with ⟨l, h, -⟩ | ⟨h, -⟩ | ⟨h, -⟩ | ⟨h, -⟩
  · exact h ▸ l.printable
  all_goals
    rw [h]
    exact printable_of_all rfl

theorem printable_cons {c : Char} {s : Text} (hc : Printable c) (hs : ∀ d ∈ s, Printable d) : ∀ d ∈ c :: s, Printable d := by
  intro d hd
  rcases List.mem_cons.1 hd with rfl | hd
  · exact hc
  · exact hs d hd

theorem printable_append {s t : Text} (hs : ∀ d ∈ s, Printable d) (ht : ∀ d ∈ t, Printable d) :
    ∀ d ∈ s ++ t, Printable d := fun d hd => (List.mem_append.1 hd).elim (hs d) (ht d)

mutual

/-- What is written is ASCII. -/
theorem printable_text : ∀ v : Json F, ∀ c ∈ text fl v, Printable c
  | .null => printable_of_all rfl
  | .bool true => printable_of_all rfl
  | .bool false => printable_of_all rfl
  | .int n => printable_intText n
  | .float x => printable_repr fl x
  | .str s => printable_quoted s.toList
  | .arr [] => printable_of_all rfl
  | .arr (v :: vs) => printable_cons ⟨by decide, by decide⟩ (printable_append (printable_text v) (printable_items vs))
  | .obj [] => printable_of_all rfl
  | .obj ((k, v) :: es) =>
    printable_cons ⟨by decide, by decide⟩ (printable_append (printable_quoted k.toList)
      (printable_cons ⟨by decide, by decide⟩ (printable_append (printable_text v) (printable_entries es))))

theorem printable_items : ∀ vs : List (Json F), ∀ c ∈ textItems fl vs, Printable c
  | [] => printable_of_all rfl
  | v :: vs => printable_cons ⟨by decide, by decide⟩ (printable_append (printable_text v) (printable_items vs))

theorem printable_entries : ∀ es : List (String × Json F), ∀ c ∈ textEntries fl es, Printable c
  | [] => printable_of_all rfl
  | (k, v) :: es =>
    printable_cons ⟨by decide, by decide⟩ (printable_append (printable_quoted k.toList)
      (printable_cons ⟨by decide, by decide⟩ (printable_append (printable_text v) (printable_entries es))))

end

/-! ### Bytes -/

/-- The bytes of ASCII text are its characters, and none is a mark or a zero. -/
theorem encodeText_ascii {s : Text} (h : ∀ c ∈ s, Printable c) : ∀ b ∈ encodeText s, 32 ≤ b.toNat ∧ b.toNat < 127 := by
  intro b hb
  obtain ⟨c, hc, hb⟩ := List.mem_flatMap.1 hb
  have hp := h c hc
  have hval : c.val.toNat = c.toNat := rfl
  rw [String.utf8EncodeChar, hval, if_pos (by have := hp.2; omega), List.mem_singleton] at hb
  rw [hb, UInt8.toNat_ofNat', Nat.mod_eq_of_lt (by have := hp.2; omega)]
  exact hp

theorem detectEncoding_ascii {b : List UInt8} (h : ∀ d ∈ b, 32 ≤ d.toNat ∧ d.toNat < 127) :
    detectEncoding b = ⟨1, false, 0⟩ := by
  have hne : ∀ d ∈ b, d ≠ 0 ∧ (0xef : UInt8) ≠ d ∧ (0xfe : UInt8) ≠ d ∧ (0xff : UInt8) ≠ d ∧ (0 : UInt8) ≠ d := by
    intro d hd
    have hd := h d hd
    refine ⟨?_, ?_, ?_, ?_, ?_⟩ <;> (rintro rfl; revert hd; decide)
  unfold detectEncoding
  match b with
  | [] => rfl
  | [b₀] => simp [List.isPrefixOf]
  | [b₀, b₁] =>
    obtain ⟨h₀, -, h₂, h₃, -⟩ := hne b₀ (by simp)
    have h₅ := (hne b₁ (by simp)).1
    simp [List.isPrefixOf, h₀, h₂, h₃, h₅]
  | [b₀, b₁, b₂] =>
    obtain ⟨-, h₁, h₂, h₃, -⟩ := hne b₀ (by simp)
    simp [List.isPrefixOf, h₁, h₂, h₃]
  | b₀ :: b₁ :: b₂ :: b₃ :: b =>
    obtain ⟨h₀, h₁, h₂, h₃, h₄⟩ := hne b₀ (by simp)
    have h₅ := (hne b₁ (by simp)).1
    simp [List.isPrefixOf, h₀, h₁, h₂, h₃, h₄, h₅]

theorem decodeText_encodeText {s : Text} (h : ∀ c ∈ s, Printable c) : decodeText (encodeText s) = some s := by
  rw [decodeText, detectEncoding_ascii (encodeText_ascii h)]
  have hd : (encodeText s).toByteArray.utf8Decode? = some s.toArray := List.utf8Decode?_utf8Encode
  simp [hd]

/-- Compact text reads as its value, in whatever order its keys are. -/
theorem loads_text {v : Json F} (h : v.Proper) : loads fl (encodeText (text fl v)) = .ok v := by
  rw [loads, decodeText_encodeText (printable_text fl v)]
  exact loadsText_text fl h

/-- **`loads` reads what `dumps` wrote**, with its keys sorted. -/
theorem loads_dumps {v : Json F} (h : v.Proper) : loads fl (dumps fl v) = .ok v.sorted :=
  loads_text fl (proper_sorted h)

end Py.Json
