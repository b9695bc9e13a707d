/-
Python's strings, as far as ids, cron expressions and queries are read: `in`,
the partitions, `strip`, `isdigit` and `int`, over lists of characters.

A separator here is a word `w ++ [x]` whose last letter `x` is in none of the
strings put after it. So no append completes a separator, and the last one in a
string can be told from what follows (`rpartition_append`).
-/
import Mathlib.Algebra.Group.Nat.Defs
import Mathlib.Data.List.Infix
import Mathlib.Data.Nat.Notation

namespace Py

/-! ## Separators -/

section Separators

variable {α : Type} {w a s : List α} {x : α}

/-- What lacks the separator's last letter completes no separator. -/
theorem infix_append_of_notMem (hx : x ∉ s) : w ++ [x] <:+: a ++ s ↔ w ++ [x] <:+: a := by
  refine ⟨fun h => ?_, List.infix_append_of_infix_left⟩
  rcases List.infix_append_iff.1 h with ha | hs | ⟨l₁, l₂, he, h₁, h₂⟩
  · exact ha
  · exact absurd (hs.subset (by simp)) hx
  · rcases List.eq_nil_or_concat l₂ with rfl | ⟨l, y, rfl⟩
    · rw [List.append_nil] at he
      rw [he]
      exact h₁.isInfix
    · have hy : x = y := by
        rw [List.concat_eq_append, ← List.append_assoc] at he
        exact List.singleton_inj.1 (List.append_inj' he rfl).2
      exact absurd (h₂.subset (by simp [hy])) hx

/-- A word around a letter it lacks is in one of the parts. -/
theorem infix_append_letter {sep : List α} {y : α} (hy : y ∉ sep) : sep <:+: a ++ y :: s ↔ sep <:+: a ∨ sep <:+: s := by
  constructor
  · intro h
    rcases List.infix_append_iff.1 h with ha | hs | ⟨l₁, l₂, he, h₁, h₂⟩
    · exact .inl ha
    · rcases List.infix_cons_iff.1 hs with hp | hs
      · cases sep with
        | nil => exact .inl (List.nil_infix)
        | cons c sep =>
          obtain ⟨t, ht⟩ := hp
          cases ht
          exact absurd (by simp) hy
      · exact .inr hs
    · cases l₂ with
      | nil => exact .inl (by rw [he, List.append_nil]; exact h₁.isInfix)
      | cons c l₂ =>
        obtain ⟨t, ht⟩ := h₂
        cases ht
        exact absurd (by simp [he]) hy
  · rintro (h | h)
    · exact List.infix_append_of_infix_left h
    · exact List.infix_append_of_infix_right (List.infix_cons h)

/-- A separator that neither front part contains is in one place. -/
theorem append_separator_inj {a' s' : List α} (hw : x ∉ w) (ha : ¬ w ++ [x] <:+: a) (ha' : ¬ w ++ [x] <:+: a')
    (h : a ++ (w ++ [x]) ++ s = a' ++ (w ++ [x]) ++ s') : a = a' ∧ s = s' := by
  have key {a a' s s' t : List α} (ha' : ¬ w ++ [x] <:+: a') (ht : a' ++ w = a ++ w ++ t) (hs : x :: s = t ++ x :: s') :
      t = [] := by
    cases t with
    | nil => rfl
    | cons c t =>
      cases hs
      refine absurd ?_ ha'
      rw [← infix_append_of_notMem hw, ht]
      exact ⟨a, t, by simp⟩
  have hsplit : (a ++ w) ++ x :: s = (a' ++ w) ++ x :: s' := by simpa using h
  rcases List.append_eq_append_iff.1 hsplit with ⟨t, ht, hs⟩ | ⟨t, ht, hs⟩
  · have he := key ha' ht hs
    subst he
    rw [List.append_nil] at ht
    exact ⟨(List.append_cancel_right ht).symm, List.cons_inj_right x |>.1 hs⟩
  · have he := key ha ht hs
    subst he
    rw [List.append_nil] at ht
    exact ⟨List.append_cancel_right ht, (List.cons_inj_right x |>.1 hs).symm⟩

variable [DecidableEq α]

/-- `s.rpartition(sep)`: what is before and after the last `sep` in `s`. -/
def rpartition (sep : List α) : List α → Option (List α × List α)
  | [] => none
  | c :: cs =>
    match rpartition sep cs with
    | some (a, b) => some (c :: a, b)
    | none => if sep.isPrefixOf (c :: cs) then some ([], (c :: cs).drop sep.length) else none

/-- The parts and the separator between them are the string. -/
theorem eq_of_rpartition {sep s a b : List α} (h : rpartition sep s = some (a, b)) : s = a ++ sep ++ b := by
  induction s generalizing a b with
  | nil => cases h
  | cons c cs ih =>
    rw [rpartition] at h
    split at h
    · next a' b' hcs =>
      cases h
      rw [ih hcs]
      rfl
    · split at h
      · next hp =>
        cases h
        rw [List.isPrefixOf_iff_prefix] at hp
        simpa using (List.prefix_append_drop hp)
      · cases h

theorem rpartition_eq_none {sep s : List α} (h : ¬ sep <:+: s) : rpartition sep s = none := by
  cases hr : rpartition sep s with
  | none => rfl
  | some p => exact absurd ⟨p.1, p.2, (eq_of_rpartition hr).symm⟩ h

/-- What lacks the separator's last letter goes after the last separator. -/
theorem rpartition_append_of_notMem (hx : x ∉ s) (a : List α) :
    rpartition (w ++ [x]) (a ++ s) = (rpartition (w ++ [x]) a).map fun p => (p.1, p.2 ++ s) := by
  induction a with
  | nil =>
    refine rpartition_eq_none fun h => hx (h.subset ?_)
    simp
  | cons c a ih =>
    rw [List.cons_append, rpartition, rpartition, ih]
    cases rpartition (w ++ [x]) a with
    | some p => rfl
    | none =>
      dsimp only [Option.map_none]
      have hiff : w ++ [x] <+: c :: (a ++ s) ↔ w ++ [x] <+: c :: a := by
        refine ⟨fun h => ?_, fun h => h.trans (List.prefix_append (c :: a) s)⟩
        rcases List.prefix_or_prefix_of_prefix h (List.prefix_append (c :: a) s) with hp | hp
        · exact hp
        · obtain ⟨t, ht⟩ := hp
          rcases List.eq_nil_or_concat t with rfl | ⟨t, y, rfl⟩
          · exact ⟨[], by rw [← ht]; simp⟩
          · have hy : y = x := by
              rw [List.concat_eq_append, ← List.append_assoc] at ht
              exact List.singleton_inj.1 (List.append_inj' ht rfl).2
            obtain ⟨u, hu⟩ := h
            rw [← ht, List.append_assoc, ← List.cons_append, List.append_cancel_left_eq] at hu
            exact absurd (by rw [← hu]; simp [hy]) hx
      by_cases hp : w ++ [x] <+: c :: a
      · rw [if_pos (List.isPrefixOf_iff_prefix.2 (hiff.2 hp)), if_pos (List.isPrefixOf_iff_prefix.2 hp)]
        rw [← List.cons_append, List.drop_append_of_le_length hp.length_le]
        rfl
      · rw [if_neg fun h => hp (hiff.1 (List.isPrefixOf_iff_prefix.1 h)),
          if_neg fun h => hp (List.isPrefixOf_iff_prefix.1 h)]
        rfl

theorem rpartition_append_self (a sep : List α) (hs : sep ≠ []) : rpartition sep (a ++ sep) = some (a, []) := by
  induction a with
  | nil =>
    cases sep with
    | nil => exact absurd rfl hs
    | cons c cs =>
      have hnone : rpartition (c :: cs) cs = none := rpartition_eq_none fun h => by
        have hle := h.length_le
        rw [List.length_cons] at hle
        omega
      rw [List.nil_append, rpartition, hnone]
      simp
  | cons c a ih => rw [List.cons_append, rpartition, ih]

/-- Before and after the last separator. -/
theorem rpartition_append (hx : x ∉ s) (a : List α) : rpartition (w ++ [x]) (a ++ (w ++ [x]) ++ s) = some (a, s) := by
  rw [rpartition_append_of_notMem hx, rpartition_append_self a _ (by simp)]
  rfl

end Separators

/-- `s.partition(c)`, without the separator: what is before the first `c`, and
what is after it. -/
def partition [DecidableEq α] (c : α) (s : List α) : List α × List α :=
  (s.takeWhile (· ≠ c), (s.dropWhile (· ≠ c)).tail)

/-! ## White space -/

/-- `c.isspace()`, which is also what `\s` matches. -/
def isSpaceChar (c : Char) : Bool :=
  let n := c.toNat
  (9 ≤ n && n ≤ 13) || (0x1c ≤ n && n ≤ 0x20) || n == 0x85 || n == 0xa0 || n == 0x1680 || (0x2000 ≤ n && n ≤ 0x200a) ||
    n == 0x2028 || n == 0x2029 || n == 0x202f || n == 0x205f || n == 0x3000

/-- `s.strip()`. -/
def strip (s : List Char) : List Char := ((s.dropWhile isSpaceChar).reverse.dropWhile isSpaceChar).reverse

/-! ## Digits -/

/-- The code points of Unicode's decimal zeros; each has its nine other digits
next to it. -/
def decimalZeros : List Nat :=
  [0x30, 0x660, 0x6f0, 0x7c0, 0x966, 0x9e6, 0xa66, 0xae6, 0xb66, 0xbe6, 0xc66, 0xce6, 0xd66, 0xde6, 0xe50, 0xed0,
    0xf20, 0x1040, 0x1090, 0x17e0, 0x1810, 0x1946, 0x19d0, 0x1a80, 0x1a90, 0x1b50, 0x1bb0, 0x1c40, 0x1c50, 0xa620,
    0xa8d0, 0xa900, 0xa9d0, 0xa9f0, 0xaa50, 0xabf0, 0xff10, 0x104a0, 0x10d30, 0x11066, 0x110f0, 0x11136, 0x111d0,
    0x112f0, 0x11450, 0x114d0, 0x11650, 0x116c0, 0x11730, 0x118e0, 0x11950, 0x11c50, 0x11d50, 0x11da0, 0x16a60,
    0x16ac0, 0x16b50, 0x1d7ce, 0x1d7d8, 0x1d7e2, 0x1d7ec, 0x1d7f6, 0x1e140, 0x1e2f0, 0x1e950, 0x1fbf0]

/-- The digits that are not decimal, by first and last code point:
superscripts, subscripts, circled digits and the like. -/
def otherDigits : List (Nat × Nat) :=
  [(0xb2, 0xb3), (0xb9, 0xb9), (0x1369, 0x1371), (0x19da, 0x19da), (0x2070, 0x2070), (0x2074, 0x2079),
    (0x2080, 0x2089), (0x2460, 0x2468), (0x2474, 0x247c), (0x2488, 0x2490), (0x24ea, 0x24ea), (0x24f5, 0x24fd),
    (0x24ff, 0x24ff), (0x2776, 0x277e), (0x2780, 0x2788), (0x278a, 0x2792), (0x10a40, 0x10a43), (0x10e60, 0x10e68),
    (0x11052, 0x1105a), (0x1f100, 0x1f10a)]

/-- The value of a decimal digit. -/
def decimalValue (c : Char) : Option Nat :=
  (decimalZeros.find? fun z => z ≤ c.toNat ∧ c.toNat < z + 10).map (c.toNat - ·)

def isDigitChar (c : Char) : Bool :=
  (decimalValue c).isSome || otherDigits.any fun r => r.1 ≤ c.toNat && c.toNat ≤ r.2

/-- `s.isdigit()`. -/
def isdigit (s : List Char) : Bool := !s.isEmpty && s.all isDigitChar

/-- `s.isdecimal()`. -/
def isdecimal (s : List Char) : Bool := !s.isEmpty && s.all fun c => (decimalValue c).isSome

/-- `sys.get_int_max_str_digits()`. -/
def intMaxStrDigits : Nat := 4300

/-- The number a row of decimal digits writes, after `n`. -/
def digitsValue (n : Nat) (s : List Char) : Option Nat :=
  s.foldlM (fun n c => (decimalValue c).map (10 * n + ·)) n

/-- `int(s)`, for an `s` that is nothing but digits: the message it raises, or
the number. -/
def int (s : List Char) : Except String Nat :=
  match digitsValue 0 s with
  | none => .error ("invalid literal for int() with base 10: '" ++ .ofList s ++ "'")
  | some n =>
    if intMaxStrDigits < s.length then
      .error ("Exceeds the limit (4300 digits) for integer string conversion: value has " ++ toString s.length ++
        " digits; use sys.set_int_max_str_digits() to increase the limit")
    else .ok n

/-- A digit that ASCII has is a decimal one. -/
theorem decimalValue_of_isDigit {c : Char} (h : c.isDigit = true) : decimalValue c = some (c.toNat - 48) := by
  have hc : 48 ≤ c.toNat ∧ c.toNat < 48 + 10 := by
    simp only [Char.isDigit, Bool.and_eq_true, decide_eq_true_eq] at h
    have h₁ : 48 ≤ c.toNat := h.1
    have h₂ : c.toNat ≤ 57 := h.2
    omega
  rw [decimalValue, decimalZeros, List.find?_cons_of_pos (by simpa using hc)]
  rfl

theorem digitsValue_of_isDigit {s : List Char} (h : ∀ c ∈ s, c.isDigit = true) (n : Nat) :
    digitsValue n s = some (Nat.ofDigitChars 10 s n) := by
  induction s generalizing n with
  | nil => rfl
  | cons c s ih =>
    rw [digitsValue, List.foldlM_cons, decimalValue_of_isDigit (h c (by simp)), Nat.ofDigitChars_cons]
    exact ih (fun c hc => h c (by simp [hc])) _

theorem isDigit_toDigits {n : Nat} {c : Char} (h : c ∈ Nat.toDigits 10 n) : c.isDigit = true :=
  Nat.isDigit_of_mem_toDigits (by omega) (by omega) h

@[simp] theorem digitsValue_toDigits (n : Nat) : digitsValue 0 (Nat.toDigits 10 n) = some n := by
  rw [digitsValue_of_isDigit fun _ => isDigit_toDigits, Nat.ofDigitChars_ten_toDigits]

@[simp] theorem isdigit_toDigits (n : Nat) : isdigit (Nat.toDigits 10 n) = true := by
  have hall : (Nat.toDigits 10 n).all isDigitChar = true := by
    rw [List.all_eq_true]
    intro c hc
    rw [isDigitChar, decimalValue_of_isDigit (isDigit_toDigits hc)]
    rfl
  simp [isdigit, hall]

/-- `int` reads a number back, as long as it has few enough digits. -/
theorem int_toDigits (n : Nat) : int (Nat.toDigits 10 n) = .ok n ↔ n < 10 ^ intMaxStrDigits := by
  rw [← Nat.length_toDigits_le_iff (by omega) (by decide), int, digitsValue_toDigits]
  dsimp only
  split
  · next hlt => simp; omega
  · next hle => simp; omega

/-- `int` answers exactly for decimal digits, few enough of them. -/
theorem int_isOk {s : List Char} : (∃ n, int s = .ok n) ↔ (digitsValue 0 s).isSome = true ∧ s.length ≤ intMaxStrDigits := by
  rw [int]
  cases digitsValue 0 s with
  | none => simp
  | some n =>
    dsimp only
    split
    · next hlt => simp; omega
    · next hle => simp; omega

theorem digitsValue_lt {s : List Char} : ∀ {m n : Nat}, digitsValue m s = some n → n < (m + 1) * 10 ^ s.length := by
  induction s with
  | nil =>
    intro m n h
    cases h
    simp
  | cons c s ih =>
    intro m n h
    rw [digitsValue, List.foldlM_cons] at h
    obtain ⟨k, hk, h⟩ := Option.bind_eq_some_iff.1 h
    obtain ⟨d, hd, rfl⟩ := Option.map_eq_some_iff.1 hk
    have hten : d < 10 := by
      obtain ⟨z, hz, rfl⟩ := Option.map_eq_some_iff.1 hd
      have := List.find?_some hz
      simp only [decide_eq_true_eq] at this
      omega
    calc n < (10 * m + d + 1) * 10 ^ s.length := ih h
      _ ≤ (10 * (m + 1)) * 10 ^ s.length := Nat.mul_le_mul_right _ (by omega)
      _ = (m + 1) * 10 ^ (c :: s).length := by
        rw [List.length_cons, Nat.pow_succ', Nat.mul_comm 10 (m + 1), Nat.mul_assoc]

/-- `int` reads no number that is too long to write. -/
theorem int_lt {s : List Char} {n : Nat} (h : int s = .ok n) : n < 10 ^ intMaxStrDigits := by
  have hlen : s.length ≤ intMaxStrDigits := (int_isOk.1 ⟨n, h⟩).2
  rw [int] at h
  cases hd : digitsValue 0 s with
  | none =>
    rw [hd] at h
    cases h
  | some m =>
    rw [hd] at h
    dsimp only at h
    rw [if_neg (Nat.not_lt.2 hlen)] at h
    cases h
    calc n < (0 + 1) * 10 ^ s.length := digitsValue_lt hd
      _ = 10 ^ s.length := by rw [Nat.zero_add, Nat.one_mul]
      _ ≤ 10 ^ intMaxStrDigits := Nat.pow_le_pow_right (by omega) hlen

theorem digitsValue_isSome {s : List Char} (n : Nat) :
    (digitsValue n s).isSome = s.all fun c => (decimalValue c).isSome := by
  induction s generalizing n with
  | nil => rfl
  | cons c s ih =>
    rw [digitsValue, List.foldlM_cons, List.all_cons]
    cases decimalValue c with
    | none => rfl
    | some v => exact (ih _).trans (by simp)

/-- A letter that is no digit of any script is in no row of digits. -/
theorem notMem_of_isdigit {s : List Char} {c : Char} (h : isdigit s = true) (hc : isDigitChar c = false) : c ∉ s := by
  intro hm
  rw [isdigit, Bool.and_eq_true, List.all_eq_true] at h
  rw [h.2 c hm] at hc
  cases hc

end Py
