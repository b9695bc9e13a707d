/-
`base64`: bytes as printable text, and back.

`b64decode` reads more than `b64encode` writes: it skips what is not in the
alphabet, and it does not ask that the bits under the padding be zero. What was
written it reads as it was (`b64decode_b64encode`).
-/
import Mathlib.Data.String.Basic

namespace Py

/-- The character of six bits. -/
def base64Digit (n : Nat) : Char :=
  if n < 26 then Char.ofNat (65 + n)
  else if n < 52 then Char.ofNat (97 + (n - 26))
  else if n < 62 then Char.ofNat (48 + (n - 52))
  else if n = 62 then '+'
  else '/'

/-- The six bits of a character, where it is in the alphabet. -/
def base64Value (c : Char) : Option Nat :=
  if 'A' ≤ c ∧ c ≤ 'Z' then some (c.toNat - 65)
  else if 'a' ≤ c ∧ c ≤ 'z' then some (c.toNat - 97 + 26)
  else if '0' ≤ c ∧ c ≤ '9' then some (c.toNat - 48 + 52)
  else if c = '+' then some 62
  else if c = '/' then some 63
  else none

/-- `base64.b64encode`: four characters for three bytes, the last four padded. -/
def b64encode : List UInt8 → List Char
  | [] => []
  | [a] => [base64Digit (a.toNat / 4), base64Digit (a.toNat % 4 * 16), '=', '=']
  | [a, b] =>
    [base64Digit (a.toNat / 4), base64Digit (a.toNat % 4 * 16 + b.toNat / 16), base64Digit (b.toNat % 16 * 4), '=']
  | a :: b :: c :: s =>
    base64Digit (a.toNat / 4) :: base64Digit (a.toNat % 4 * 16 + b.toNat / 16) ::
      base64Digit (b.toNat % 16 * 4 + c.toNat / 64) :: base64Digit (c.toNat % 64) :: b64encode s

/-- `binascii.a2b_base64`, in the middle of a text: how many characters of the
four it has, the bits it has not written yet, and the padding since the last
character. -/
def a2bBase64 (quad left pads : Nat) : List Char → Option (List UInt8)
  | [] => if quad = 0 then some [] else none
  | c :: s =>
    if c = '=' then
      if 2 ≤ quad ∧ 4 ≤ quad + (pads + 1) then some []
      else a2bBase64 quad left (if 2 ≤ quad then pads + 1 else pads) s
    else
      match base64Value c with
      | none => a2bBase64 quad left pads s
      | some v =>
        match quad with
        | 0 => a2bBase64 1 v 0 s
        | 1 => (a2bBase64 2 (v % 16) 0 s).map (UInt8.ofNat (left * 4 + v / 16) :: ·)
        | 2 => (a2bBase64 3 (v % 4) 0 s).map (UInt8.ofNat (left * 16 + v / 4) :: ·)
        | _ => (a2bBase64 0 0 0 s).map (UInt8.ofNat (left * 64 + v) :: ·)

/-- `base64.b64decode`, of a string. -/
def b64decode (s : List Char) : Option (List UInt8) :=
  if s.all fun c => c.toNat < 128 then a2bBase64 0 0 0 s else none

/-! ## The alphabet -/

theorem base64Value_digit {n : Nat} (h : n < 64) : base64Value (base64Digit n) = some n := by
  have hall : ∀ m : Fin 64, base64Value (base64Digit m) = some m.val := by decide
  exact hall ⟨n, h⟩

theorem base64Digit_ascii (n : Nat) (h : n < 64) : (base64Digit n).toNat < 128 ∧ base64Digit n ≠ '=' := by
  have hall : ∀ m : Fin 64, (base64Digit m).toNat < 128 ∧ base64Digit m ≠ '=' := by decide
  exact hall ⟨n, h⟩

section Step

variable {v : Nat} (hv : v < 64) (left pads : Nat) (s : List Char)
include hv

/-- A character of the alphabet, wherever in the four it stands. -/
theorem a2bBase64_digit (quad : Nat) : a2bBase64 quad left pads (base64Digit v :: s) =
    match quad with
    | 0 => a2bBase64 1 v 0 s
    | 1 => (a2bBase64 2 (v % 16) 0 s).map (UInt8.ofNat (left * 4 + v / 16) :: ·)
    | 2 => (a2bBase64 3 (v % 4) 0 s).map (UInt8.ofNat (left * 16 + v / 4) :: ·)
    | _ => (a2bBase64 0 0 0 s).map (UInt8.ofNat (left * 64 + v) :: ·) := by
  rw [a2bBase64, if_neg (base64Digit_ascii v hv).2, base64Value_digit hv]

theorem a2bBase64_first : a2bBase64 0 left pads (base64Digit v :: s) = a2bBase64 1 v 0 s :=
  a2bBase64_digit hv left pads s 0

theorem a2bBase64_second : a2bBase64 1 left pads (base64Digit v :: s) =
    (a2bBase64 2 (v % 16) 0 s).map (UInt8.ofNat (left * 4 + v / 16) :: ·) := a2bBase64_digit hv left pads s 1

theorem a2bBase64_third : a2bBase64 2 left pads (base64Digit v :: s) =
    (a2bBase64 3 (v % 4) 0 s).map (UInt8.ofNat (left * 16 + v / 4) :: ·) := a2bBase64_digit hv left pads s 2

theorem a2bBase64_fourth : a2bBase64 3 left pads (base64Digit v :: s) =
    (a2bBase64 0 0 0 s).map (UInt8.ofNat (left * 64 + v) :: ·) := a2bBase64_digit hv left pads s 3

end Step

/-! ## There and back -/

theorem uint8_ofNat_eq {n : Nat} {a : UInt8} (h : n = a.toNat) : UInt8.ofNat n = a := by
  rw [h, UInt8.ofNat_toNat]

theorem a2bBase64_b64encode (b : List UInt8) : a2bBase64 0 0 0 (b64encode b) = some b := by
  fun_induction b64encode b with
  | case1 => rfl
  | case2 a =>
    have ha := a.toNat_lt
    rw [a2bBase64_first (by omega), a2bBase64_second (by omega)]
    simp only [a2bBase64, if_true, Option.map_some]
    exact congrArg (some [·]) (uint8_ofNat_eq (by omega))
  | case3 a b =>
    have ha := a.toNat_lt
    have hb := b.toNat_lt
    rw [a2bBase64_first (by omega), a2bBase64_second (by omega), a2bBase64_third (by omega)]
    simp only [a2bBase64, if_true, Option.map_some]
    rw [uint8_ofNat_eq (show a.toNat / 4 * 4 + (a.toNat % 4 * 16 + b.toNat / 16) / 16 = a.toNat by omega),
      uint8_ofNat_eq (show (a.toNat % 4 * 16 + b.toNat / 16) % 16 * 16 + b.toNat % 16 * 4 / 4 = b.toNat by omega)]
    rfl
  | case4 a b c s ih =>
    have ha := a.toNat_lt
    have hb := b.toNat_lt
    have hc := c.toNat_lt
    rw [a2bBase64_first (by omega), a2bBase64_second (by omega), a2bBase64_third (by omega), a2bBase64_fourth (by omega),
      ih]
    simp only [Option.map_some]
    rw [uint8_ofNat_eq (show a.toNat / 4 * 4 + (a.toNat % 4 * 16 + b.toNat / 16) / 16 = a.toNat by omega),
      uint8_ofNat_eq (show (a.toNat % 4 * 16 + b.toNat / 16) % 16 * 16 + (b.toNat % 16 * 4 + c.toNat / 64) / 4 = b.toNat by
        omega),
      uint8_ofNat_eq (show (b.toNat % 16 * 4 + c.toNat / 64) % 4 * 64 + c.toNat % 64 = c.toNat by omega)]

theorem b64encode_ascii (b : List UInt8) : ∀ c ∈ b64encode b, c.toNat < 128 := by
  have hpad : '='.toNat < 128 := by decide
  have hdigit : ∀ {n : Nat}, n < 64 → (base64Digit n).toNat < 128 := fun h => (base64Digit_ascii _ h).1
  fun_induction b64encode b with
  | case1 => simp
  | case2 a =>
    have ha := a.toNat_lt
    simp only [List.forall_mem_cons, List.not_mem_nil, false_imp_iff, implies_true, and_true]
    exact ⟨hdigit (by omega), hdigit (by omega), hpad, hpad⟩
  | case3 a b =>
    have ha := a.toNat_lt
    have hb := b.toNat_lt
    simp only [List.forall_mem_cons, List.not_mem_nil, false_imp_iff, implies_true, and_true]
    exact ⟨hdigit (by omega), hdigit (by omega), hdigit (by omega), hpad⟩
  | case4 a b c s ih =>
    have ha := a.toNat_lt
    have hb := b.toNat_lt
    have hc := c.toNat_lt
    simp only [List.forall_mem_cons]
    exact ⟨hdigit (by omega), hdigit (by omega), hdigit (by omega), hdigit (by omega), ih⟩

/-- **Bytes come back from their text.** -/
@[simp] theorem b64decode_b64encode (b : List UInt8) : b64decode (b64encode b) = some b := by
  rw [b64decode, if_pos (List.all_eq_true.2 fun c hc => decide_eq_true (b64encode_ascii b c hc)), a2bBase64_b64encode]

end Py
