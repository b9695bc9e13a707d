/-
The plain data of the program: durations, payload dicts, user values, the
exceptions its own code raises, and the conversion boundary.

Python floats are read as exact rationals. The one place where a float
operation fails instead of rounding, `**` past the largest float, is kept
(`pyPow`).
-/
import Mathlib.Algebra.Order.Floor.Ring
import Mathlib.Data.Rat.Floor

namespace Dbosify

/-- Seconds, as the program's floats hold them. -/
abbrev Seconds := ℚ

/-- A payload dict, by its JSON text. The interpreter passes it on unread. -/
structure Payload where
  text : String
deriving DecidableEq, Repr

/-- A value of user code: a string or a list the interpreter itself makes
(a dynamic handler's arguments), `None`, or an object it never looks into. -/
inductive Value
  | none
  | obj (repr : String)
  | str (s : String)
  | list (vs : List Value)
deriving Repr

/-- A type annotation, by its name. -/
structure Hint where
  name : String
deriving DecidableEq, Repr

/-- `RawValue`, the hint under which a payload is not converted. -/
def Hint.rawValue : Hint := ⟨"RawValue"⟩

/-- Interceptor headers in wire form. -/
abbrev Headers := List (String × Payload)

/-- What the program's own code, or the code it calls, can raise. -/
inductive Exc
  | valueError (message : String)
  | keyError (message : String)
  | typeError (message : String)
  | attributeError (message : String)
  | runtimeError (message : String)
  | assertionError
  | invalidStateError
  | overflowError
  | readOnlyContextError (message : String)
  | nondeterminismError (message : String)
  /-- A `ValueError` of its own class. -/
  | visibilityQueryError (message : String)
  /-- What a payload converter or a codec raises. -/
  | conversionError (message : String)
  /-- What the awaited operation itself raised. -/
  | taskError (message : String)
deriving DecidableEq, Repr

/-! ## Except -/

theorem bind_eq_ok {ε α β : Type} {x : Except ε α} {f : α → Except ε β} {b : β} :
    (x >>= f) = .ok b ↔ ∃ a, x = .ok a ∧ f a = .ok b := by
  cases x with
  | error e => simp [bind, Except.bind]
  | ok a => simp [bind, Except.bind]

theorem pure_eq_ok {ε α : Type} {a b : α} : (pure a : Except ε α) = .ok b ↔ a = b := by
  simp [pure, Except.pure]

theorem except_map_eq_ok {ε α β : Type} {x : Except ε α} {f : α → β} {b : β} :
    x.map f = .ok b ↔ ∃ a, x = .ok a ∧ f a = b := by
  cases x <;> simp [Except.map]

@[simp] theorem ok_bind {ε α β : Type} (a : α) (f : α → Except ε β) : (Except.ok a >>= f) = f a := rfl

@[simp] theorem error_bind {ε α β : Type} (e : ε) (f : α → Except ε β) :
    (Except.error e >>= f) = .error e := rfl

theorem bind_eq_error {ε α β : Type} {x : Except ε α} {f : α → Except ε β} {e : ε} :
    (x >>= f) = .error e ↔ x = .error e ∨ ∃ a, x = .ok a ∧ f a = .error e := by
  cases x with
  | error e' => simp
  | ok a => simp

theorem except_map_eq_error {ε α β : Type} {x : Except ε α} {f : α → β} {e : ε} :
    x.map f = .error e ↔ x = .error e := by
  cases x <;> simp [Except.map]

theorem forM_eq_ok {ε α : Type} {f : α → Except ε Unit} {l : List α} :
    l.forM f = .ok () ↔ ∀ a ∈ l, f a = .ok () := by
  induction l with
  | nil => simp [pure, Except.pure]
  | cons a l ih =>
    show (f a >>= fun _ => l.forM f) = .ok () ↔ _
    rw [bind_eq_ok, List.forall_mem_cons, ← ih]
    constructor
    · rintro ⟨_, ha, hl⟩
      exact ⟨ha, hl⟩
    · rintro ⟨ha, hl⟩
      exact ⟨_, ha, hl⟩

/-- A fold of fallible steps that succeeds: what holds at its start, and
survives each step that succeeds, holds at its end. -/
theorem foldlM_induct {ε α β : Type} {f : β → α → Except ε β} {P : List α → β → Prop} {l : List α}
    {b r : β} (h : l.foldlM f b = .ok r) (h₀ : P l b)
    (hs : ∀ {a l b b'}, P (a :: l) b → f b a = .ok b' → P l b') : P [] r := by
  induction l generalizing b with
  | nil => rw [List.foldlM_nil, pure_eq_ok] at h; rwa [← h]
  | cons a l ih =>
    rw [List.foldlM_cons, bind_eq_ok] at h
    obtain ⟨b₁, ha, hl⟩ := h
    exact ih hl (hs h₀ ha)

/-- A condition on each element of a fallible fold, in the state the fold
comes to it in. -/
def EachStep {ε α β : Type} (f : β → α → Except ε β) (C : β → α → Prop) : List α → β → Prop
  | [], _ => True
  | a :: l, b => C b a ∧ ∀ b', f b a = .ok b' → EachStep f C l b'

/-- Whatever `x` raises satisfies `P`. -/
def Raises {ε α : Type} (P : ε → Prop) (x : Except ε α) : Prop := ∀ e, x = .error e → P e

namespace Raises

variable {ε α β : Type} {P : ε → Prop}

theorem ok (a : α) : Raises P (.ok a : Except ε α) := fun _ h => by cases h

theorem error {e : ε} (h : P e) : Raises P (.error e : Except ε α) := fun _ he => by cases he; exact h

theorem bind {x : Except ε α} {f : α → Except ε β} (h : Raises P x) (h' : ∀ a, x = .ok a → Raises P (f a)) :
    Raises P (x >>= f) := by
  intro e he
  cases x with
  | error e' => rw [error_bind] at he; cases he; exact h _ rfl
  | ok a => exact h' a rfl e he

@[simp] theorem ok_iff {a : α} : Raises P (.ok a : Except ε α) ↔ True := iff_true_intro (ok a)

@[simp] theorem error_iff {e : ε} : Raises P (.error e : Except ε α) ↔ P e := ⟨fun h => h e rfl, error⟩

theorem bind_iff {x : Except ε α} {f : α → Except ε β} :
    Raises P (x >>= f) ↔ Raises P x ∧ ∀ a, x = .ok a → Raises P (f a) := by
  refine ⟨fun h => ?_, fun h => h.1.bind h.2⟩
  cases x with
  | error e => exact ⟨error (h e rfl), fun a ha => by cases ha⟩
  | ok a => exact ⟨ok a, fun b hb => by cases hb; exact h⟩

/-- A fold raises what its steps raise, each under the condition it meets. -/
theorem foldlM {f : β → α → Except ε β} {C : β → α → Prop} (hf : ∀ b a, C b a → Raises P (f b a)) {l : List α} {b : β}
    (h : EachStep f C l b) : Raises P (l.foldlM f b) := by
  induction l generalizing b with
  | nil => exact ok b
  | cons a l ih =>
    rw [List.foldlM_cons]
    exact (hf b a h.1).bind fun b' hb => ih (h.2 b' hb)

theorem map {x : Except ε α} (f : α → β) (h : Raises P x) : Raises P (x.map f) := by
  intro e he
  cases x with
  | error e' => cases he; exact h _ rfl
  | ok a => cases he

theorem mapM {f : α → Except ε β} (h : ∀ a, Raises P (f a)) (l : List α) : Raises P (l.mapM f) := by
  induction l with
  | nil => exact ok []
  | cons a l ih =>
    rw [List.mapM_cons]
    exact (h a).bind fun b _ => ih.bind fun bs _ => ok (b :: bs)

end Raises

/-! ## Durations -/

/-- `datetime.timedelta`: a whole number of microseconds. -/
structure Timedelta where
  micros : Int
deriving DecidableEq, Repr

def Timedelta.totalSeconds (d : Timedelta) : Seconds := (d.micros : ℚ) / 1000000

/-- `round`: the nearest integer, a tie to the even one. -/
def roundHalfEven (q : ℚ) : Int :=
  let r := q - ⌊q⌋
  if r < 1 / 2 then ⌊q⌋ else if 1 / 2 < r then ⌊q⌋ + 1 else if ⌊q⌋ % 2 = 0 then ⌊q⌋ else ⌊q⌋ + 1

/-- `timedelta(seconds=q)`. -/
def Timedelta.ofSeconds (q : Seconds) : Timedelta := ⟨roundHalfEven (q * 1000000)⟩

theorem roundHalfEven_int (n : Int) : roundHalfEven (n : ℚ) = n := by
  simp [roundHalfEven]

@[simp] theorem Timedelta.ofSeconds_totalSeconds (d : Timedelta) : ofSeconds d.totalSeconds = d := by
  have h : (d.micros : ℚ) / 1000000 * 1000000 = (d.micros : ℚ) := by ring
  simp only [ofSeconds, totalSeconds, h, roundHalfEven_int]

@[simp] theorem Timedelta.totalSeconds_eq_zero {d : Timedelta} : d.totalSeconds = 0 ↔ d.micros = 0 := by
  simp [totalSeconds]

/-- `b ** n` on floats: an exact value of 2^1024 or more has no float, and
raises. -/
def pyPow (b : ℚ) (n : Nat) : Except Exc ℚ :=
  if |b ^ n| < 2 ^ 1024 then .ok (b ^ n) else .error .overflowError

/-! ## Conversion -/

/-- The process's data converter: a payload converter and an optional codec,
each of which can reject what it is given. -/
structure Converter where
  encode : List Value → Except String (List Payload)
  decode : List Payload → Option (List Hint) → Except String (List Value)
  codecEncode : List Payload → Except String (List Payload)
  codecDecode : List Payload → Except String (List Payload)
  /-- One payload, without a codec and without a hint. -/
  decodeSync : Payload → Except String Value

/-- What a converter raises, as it reaches the program. -/
def converted {α : Type} (x : Except String α) : Except Exc α := x.mapError .conversionError

/-- `conversion.encode_values`. -/
def encodeValues (c : Converter) (values : List Value) : Except Exc (List Payload) :=
  converted (c.encode values)

/-- `conversion.encode_value`. -/
def encodeValue (c : Converter) (value : Value) : Except Exc Payload := do
  match ← encodeValues c [value] with
  | p :: _ => .ok p
  | [] => .error (.conversionError "list index out of range")

/-- `conversion.decode_values`: no payloads, nothing to convert; a hint for
each payload there is. -/
def decodeValues (c : Converter) (values : List Payload) (hints : Option (List Hint)) :
    Except Exc (List Value) :=
  if values.isEmpty then .ok [] else converted (c.decode values (hints.map (·.take values.length)))

/-- `conversion.decode_value`. -/
def decodeValue (c : Converter) (value : Payload) (hint : Option Hint) : Except Exc Value := do
  match ← decodeValues c [value] (hint.map ([·])) with
  | v :: _ => .ok v
  | [] => .error (.conversionError "list index out of range")

/-- `conversion.decode_value_sync`. -/
def decodeValueSync (c : Converter) (value : Payload) : Except Exc Value := converted (c.decodeSync value)

/-- `conversion.encode_headers`. -/
def encodeHeaders (c : Converter) (headers : Headers) : Except Exc Headers :=
  if headers.isEmpty then .ok [] else do
    let ps ← converted (c.codecEncode (headers.map (·.2)))
    .ok ((headers.map (·.1)).zip ps)

/-- `conversion.decode_headers`. -/
def decodeHeaders (c : Converter) (wire : Headers) : Except Exc Headers :=
  if wire.isEmpty then .ok [] else do
    let ps ← converted (c.codecDecode (wire.map (·.2)))
    .ok ((wire.map (·.1)).zip ps)

end Dbosify
