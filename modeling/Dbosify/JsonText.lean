/-
`json`: the values, the texts, and what `loads` and `dumps` make of each.

`dumps` writes compact text with sorted keys, in ASCII. `loads` reads any text
of the grammar: white space, escapes of every kind, numbers in every form, keys
in any order and more than once, in UTF-8, UTF-16 or UTF-32.
-/
import Mathlib.Data.String.Basic
import Dbosify.Dict
import Dbosify.KeyedLists
import Dbosify.Strings

namespace Py

abbrev Text := List Char

/-- What `json.loads` makes of a text. The entries of an object are a
dictionary's, in its order. -/
inductive Json (F : Type)
  | null
  | bool (b : Bool)
  | int (n : Int)
  | float (x : F)
  | str (s : String)
  | arr (items : List (Json F))
  | obj (entries : List (String × Json F))

namespace Json

/-! ## Numbers, as texts -/

/-- An integer part: no digit before it that could be left out. -/
def Natural (s : Text) : Prop :=
  s = ['0'] ∨ ∃ c ds, s = c :: ds ∧ c ≠ '0' ∧ c.isDigit = true ∧ ∀ d ∈ ds, d.isDigit = true

def Digits (s : Text) : Prop := s ≠ [] ∧ ∀ c ∈ s, c.isDigit = true

/-- The text of a float: it has a fraction or an exponent. -/
structure FloatLiteral where
  negative : Bool
  whole : Text
  fraction : Text
  exponent : Text
  whole_natural : Natural whole
  fraction_digits : fraction = [] ∨ ∃ ds, Digits ds ∧ fraction = '.' :: ds
  exponent_digits : exponent = [] ∨ ∃ e sign ds, (e = 'e' ∨ e = 'E') ∧ (sign = [] ∨ sign = ['+'] ∨ sign = ['-']) ∧
    Digits ds ∧ exponent = e :: (sign ++ ds)
  isFloat : fraction ≠ [] ∨ exponent ≠ []

def FloatLiteral.text (l : FloatLiteral) : Text :=
  (if l.negative then ['-'] else []) ++ l.whole ++ l.fraction ++ l.exponent

end Json

/-- Python's floats, by their texts: `float(s)`, `repr`, and the constants
that `json` has names for. A float is read back from its `repr`. -/
structure FloatText (F : Type) where
  ofText : Text → F
  nan : F
  infinity : F
  negInfinity : F
  repr : F → Text
  repr_reads : ∀ x, (∃ l : Json.FloatLiteral, repr x = l.text ∧ ofText l.text = x) ∨
    (repr x = "NaN".toList ∧ nan = x) ∨ (repr x = "Infinity".toList ∧ infinity = x) ∨
    (repr x = "-Infinity".toList ∧ negInfinity = x)

/-- A single float, 1.5. -/
def FloatText.single : FloatText Unit where
  ofText _ := ()
  nan := ()
  infinity := ()
  negInfinity := ()
  repr _ := "1.5".toList
  repr_reads _ := .inl
    ⟨{ negative := false
       whole := ['1']
       fraction := ['.', '5']
       exponent := []
       whole_natural := .inr ⟨'1', [], rfl, by decide, rfl, by simp⟩
       fraction_digits := .inr ⟨['5'], ⟨by simp, fun c hc => List.mem_singleton.1 hc ▸ rfl⟩, rfl⟩
       exponent_digits := .inl rfl
       isFloat := .inl (by simp) }, rfl, rfl⟩

namespace Json

/-! ## Errors -/

/-- What `loads` raises: a `JSONDecodeError`, or the `ValueError` of an `int`
with too many digits. -/
inductive JsonError
  | decode (message : String)
  | value (message : String)
  /-- Half of a surrogate pair, alone: `json` reads it, but it is no character. -/
  | surrogate
  /-- The scanner was not given enough fuel. -/
  | fuel
deriving DecidableEq, Repr

/-! ## White space and numbers, scanned -/

def isSpace (c : Char) : Bool := c = ' ' || c = '\t' || c = '\n' || c = '\r'

def skipSpace (s : Text) : Text := s.dropWhile isSpace

/-- Digits without a leading zero, or the zero. -/
def scanNatural : Text → Option (Text × Text)
  | [] => none
  | c :: s =>
    if c = '0' then some (['0'], s)
    else if c.isDigit then some (c :: s.takeWhile Char.isDigit, s.dropWhile Char.isDigit)
    else none

def scanInteger : Text → Option (Text × Text)
  | [] => none
  | c :: s => if c = '-' then (scanNatural s).map fun r => ('-' :: r.1, r.2) else scanNatural (c :: s)

/-- A point with the digits after it, if there are any. -/
def scanFraction : Text → Text × Text
  | [] => ([], [])
  | c :: s =>
    if c = '.' ∧ s.takeWhile Char.isDigit ≠ [] then ('.' :: s.takeWhile Char.isDigit, s.dropWhile Char.isDigit)
    else ([], c :: s)

/-- The sign of an exponent. -/
def scanSign : Text → Text × Text
  | [] => ([], [])
  | c :: s => if c = '+' ∨ c = '-' then ([c], s) else ([], c :: s)

/-- An exponent, if it has digits. -/
def scanExponent : Text → Text × Text
  | [] => ([], [])
  | c :: s =>
    if (c = 'e' ∨ c = 'E') ∧ (scanSign s).2.takeWhile Char.isDigit ≠ [] then
      (c :: ((scanSign s).1 ++ (scanSign s).2.takeWhile Char.isDigit), (scanSign s).2.dropWhile Char.isDigit)
    else ([], c :: s)

/-- The integer of an integer part. -/
def intOf : Text → Except JsonError Int
  | [] => .error (.value "invalid literal for int() with base 10: ''")
  | c :: s =>
    if c = '-' then ((Py.int s).mapError JsonError.value).map Int.negOfNat
    else ((Py.int (c :: s)).mapError JsonError.value).map Int.ofNat

variable {F : Type} (fl : FloatText F)

/-- A number; without fraction and exponent, an integer. -/
def scanNumber (s : Text) : Except JsonError (Json F × Text) :=
  match scanInteger s with
  | none => .error (.decode "Expecting value")
  | some (whole, rest) =>
    let fraction := scanFraction rest
    let exponent := scanExponent fraction.2
    if fraction.1 = [] ∧ exponent.1 = [] then (intOf whole).map fun n => (.int n, rest)
    else .ok (.float (fl.ofText (whole ++ fraction.1 ++ exponent.1)), exponent.2)

/-- The constants, by name. -/
def words : List (Text × Json F) :=
  [("null".toList, .null), ("true".toList, .bool true), ("false".toList, .bool false), ("NaN".toList, .float fl.nan),
    ("Infinity".toList, .float fl.infinity), ("-Infinity".toList, .float fl.negInfinity)]

/-- What follows a word, where the text starts with it. -/
def afterWord : Text → Text → Option Text
  | [], s => some s
  | _ :: _, [] => none
  | w :: ws, c :: s => if c = w then afterWord ws s else none

/-- A constant or a number. -/
def scanAtom (s : Text) : Except JsonError (Json F × Text) :=
  match (words fl).findSome? fun w => (afterWord w.1 s).map fun rest => (w.2, rest) with
  | some r => .ok r
  | none => scanNumber fl s

/-! ## Strings, scanned -/

def hexValue (c : Char) : Option Nat :=
  if c.isDigit then some (c.toNat - 48)
  else if 'a' ≤ c ∧ c ≤ 'f' then some (c.toNat - 87)
  else if 'A' ≤ c ∧ c ≤ 'F' then some (c.toNat - 55)
  else none

/-- Four hexadecimal digits. -/
def hexUnit (a b c d : Char) : Option Nat := do
  let a ← hexValue a
  let b ← hexValue b
  let c ← hexValue c
  let d ← hexValue d
  some (4096 * a + 256 * b + 16 * c + d)

def isHighSurrogate (n : Nat) : Bool := 0xd800 ≤ n && n < 0xdc00

def isLowSurrogate (n : Nat) : Bool := 0xdc00 ≤ n && n < 0xe000

/-- The character of a surrogate pair. -/
def joinSurrogates (high low : Nat) : Char := Char.ofNat (0x10000 + 0x400 * (high - 0xd800) + (low - 0xdc00))

/-- What a letter after a backslash stands for. -/
def unescape (c : Char) : Option Char :=
  if c = '"' ∨ c = '\\' ∨ c = '/' then some c
  else if c = 'b' then some (Char.ofNat 8)
  else if c = 'f' then some (Char.ofNat 12)
  else if c = 'n' then some '\n'
  else if c = 'r' then some '\r'
  else if c = 't' then some '\t'
  else none

/-- One more character in front of what a scanner reads. -/
def push (c : Char) (r : Except JsonError (Text × Text)) : Except JsonError (Text × Text) :=
  r.map fun p => (c :: p.1, p.2)

/-- A string, after its opening quote. -/
def scanString : Text → Except JsonError (Text × Text)
  | [] => .error (.decode "Unterminated string starting at")
  | c :: s =>
    if c = '"' then .ok ([], s)
    else if c ≠ '\\' then
      if c.toNat < 32 then .error (.decode "Invalid control character at") else push c (scanString s)
    else
      match s with
      | [] => .error (.decode "Unterminated string starting at")
      | e :: s =>
        if e ≠ 'u' then
          match unescape e with
          | some c => push c (scanString s)
          | none => .error (.decode "Invalid \\escape")
        else
          match s with
          | h₁ :: h₂ :: h₃ :: h₄ :: s =>
            match hexUnit h₁ h₂ h₃ h₄ with
            | none => .error (.decode "Invalid \\uXXXX escape")
            | some n =>
              if isHighSurrogate n then
                match s with
                | b :: u :: l₁ :: l₂ :: l₃ :: l₄ :: s =>
                  match hexUnit l₁ l₂ l₃ l₄ with
                  | some m =>
                    if b = '\\' ∧ u = 'u' ∧ isLowSurrogate m then push (joinSurrogates n m) (scanString s)
                    else .error .surrogate
                  | none => .error .surrogate
                | _ => .error .surrogate
              else if isLowSurrogate n then .error .surrogate
              else push (Char.ofNat n) (scanString s)
          | _ => .error (.decode "Invalid \\uXXXX escape")

theorem scanString_quote (s : Text) : scanString ('"' :: s) = .ok ([], s) := by
  rw [scanString.eq_def]
  exact if_pos rfl

/-! ## Values, scanned -/

/-- A key, with its colon and the space around it. -/
def scanKey : Text → Except JsonError (String × Text)
  | '"' :: s => do
    let (k, s) ← scanString s
    match skipSpace s with
    | ':' :: s => .ok (.ofList k, skipSpace s)
    | _ => .error (.decode "Expecting ':' delimiter")
  | _ => .error (.decode "Expecting property name enclosed in double quotes")

mutual

/-- `scan_once`: a value at the start of the text. -/
def scanOnce : Nat → Text → Except JsonError (Json F × Text)
  | 0, _ => .error .fuel
  | _ + 1, [] => .error (.decode "Expecting value")
  | n + 1, c :: s =>
    if c = '"' then (scanString s).map fun r => (.str (.ofList r.1), r.2)
    else if c = '[' then
      match skipSpace s with
      | ']' :: s => .ok (.arr [], s)
      | s => (scanItems n s).map fun r => (.arr r.1, r.2)
    else if c = '{' then
      match skipSpace s with
      | '}' :: s => .ok (.obj [], s)
      | s => (scanEntries n s).map fun r => (.obj (Dict.ofEntries r.1).entries, r.2)
    else scanAtom fl (c :: s)

/-- The items of an array from one on. -/
def scanItems : Nat → Text → Except JsonError (List (Json F) × Text)
  | 0, _ => .error .fuel
  | n + 1, s => do
    let (v, s) ← scanOnce n s
    match skipSpace s with
    | ',' :: s => do
      let (vs, s) ← scanItems n (skipSpace s)
      .ok (v :: vs, s)
    | ']' :: s => .ok ([v], s)
    | _ => .error (.decode "Expecting ',' delimiter")

/-- The entries of an object from one on. -/
def scanEntries : Nat → Text → Except JsonError (List (String × Json F) × Text)
  | 0, _ => .error .fuel
  | n + 1, s => do
    let (k, s) ← scanKey s
    let (v, s) ← scanOnce n s
    match skipSpace s with
    | ',' :: s => do
      let (es, s) ← scanEntries n (skipSpace s)
      .ok ((k, v) :: es, s)
    | '}' :: s => .ok ([(k, v)], s)
    | _ => .error (.decode "Expecting ',' delimiter")

end

/-- `loads`, of a text. -/
def loadsText (s : Text) : Except JsonError (Json F) := do
  let (v, rest) ← scanOnce fl (2 * s.length + 1) (skipSpace s)
  if skipSpace rest = [] then .ok v else .error (.decode "Extra data")

/-! ## Values, written -/

/-- A lower-case hexadecimal digit. -/
def hexDigit (n : Nat) : Char := if n < 10 then Char.ofNat (48 + n) else Char.ofNat (87 + n)

/-- `\\u` and four digits. -/
def unicodeEscape (n : Nat) : Text :=
  ['\\', 'u', hexDigit (n / 4096), hexDigit (n / 256 % 16), hexDigit (n / 16 % 16), hexDigit (n % 16)]

/-- `ESCAPE_DCT`. -/
def shortEscape (c : Char) : Option Char :=
  if c = '"' ∨ c = '\\' then some c
  else if c = '\n' then some 'n'
  else if c = '\r' then some 'r'
  else if c = '\t' then some 't'
  else if c.toNat = 12 then some 'f'
  else if c.toNat = 8 then some 'b'
  else none

/-- A character in ASCII: itself if it is printable, else an escape, beyond the
basic plane two. -/
def escape (c : Char) : Text :=
  match shortEscape c with
  | some e => ['\\', e]
  | none =>
    if 32 ≤ c.toNat ∧ c.toNat < 127 then [c]
    else if c.toNat < 0x10000 then unicodeEscape c.toNat
    else
      unicodeEscape (0xd800 + (c.toNat - 0x10000) / 0x400) ++ unicodeEscape (0xdc00 + (c.toNat - 0x10000) % 0x400)

/-- `py_encode_basestring_ascii`. -/
def quoted (s : Text) : Text := '"' :: (s.flatMap escape ++ ['"'])

def intText : Int → Text
  | .ofNat n => Nat.toDigits 10 n
  | .negSucc n => '-' :: Nat.toDigits 10 (n + 1)

mutual

/-- The compact text of a value, its keys in the order they have. -/
def text : Json F → Text
  | .null => "null".toList
  | .bool true => "true".toList
  | .bool false => "false".toList
  | .int n => intText n
  | .float x => fl.repr x
  | .str s => quoted s.toList
  | .arr [] => ['[', ']']
  | .arr (v :: vs) => '[' :: (text v ++ textItems vs)
  | .obj [] => ['{', '}']
  | .obj ((k, v) :: es) => '{' :: (quoted k.toList ++ ':' :: (text v ++ textEntries es))

/-- The further items of an array, and its end. -/
def textItems : List (Json F) → Text
  | [] => [']']
  | v :: vs => ',' :: (text v ++ textItems vs)

/-- The further entries of an object, and its end. -/
def textEntries : List (String × Json F) → Text
  | [] => ['}']
  | (k, v) :: es => ',' :: (quoted k.toList ++ ':' :: (text v ++ textEntries es))

end

mutual

/-- The keys of all its objects in order. -/
def sorted : Json F → Json F
  | .arr vs => .arr (sortedItems vs)
  | .obj es => .obj (Keyed.sort Prod.fst (sortedEntries es))
  | v => v

def sortedItems : List (Json F) → List (Json F)
  | [] => []
  | v :: vs => sorted v :: sortedItems vs

def sortedEntries : List (String × Json F) → List (String × Json F)
  | [] => []
  | (k, v) :: es => (k, sorted v) :: sortedEntries es

end

/-- `dumps` with compact separators and sorted keys. -/
def dumpsText (v : Json F) : Text := text fl v.sorted

mutual

/-- What can be written: no key twice, and no integer that has too many
digits. -/
def Proper : Json F → Prop
  | .int n => n.natAbs < 10 ^ intMaxStrDigits
  | .arr vs => ProperItems vs
  | .obj es => (es.map Prod.fst).Nodup ∧ ProperEntries es
  | _ => True

def ProperItems : List (Json F) → Prop
  | [] => True
  | v :: vs => Proper v ∧ ProperItems vs

def ProperEntries : List (String × Json F) → Prop
  | [] => True
  | (_, v) :: es => Proper v ∧ ProperEntries es

end

/-! ## Bytes -/

/-- An encoding of texts: the bytes of a unit, which of them comes first, and
the bytes of the mark before the text. -/
structure TextEncoding where
  width : Nat
  bigEndian : Bool
  mark : Nat

/-- `detect_encoding`: by the mark, else by where the zeros are. -/
def detectEncoding (b : List UInt8) : TextEncoding :=
  if [0, 0, 0xfe, 0xff].isPrefixOf b then ⟨4, true, 4⟩
  else if [0xff, 0xfe, 0, 0].isPrefixOf b then ⟨4, false, 4⟩
  else if [0xfe, 0xff].isPrefixOf b then ⟨2, true, 2⟩
  else if [0xff, 0xfe].isPrefixOf b then ⟨2, false, 2⟩
  else if [0xef, 0xbb, 0xbf].isPrefixOf b then ⟨1, false, 3⟩
  else
    match b with
    | b₀ :: b₁ :: b₂ :: b₃ :: _ =>
      if b₀ = 0 then if b₁ = 0 then ⟨4, true, 0⟩ else ⟨2, true, 0⟩
      else if b₁ = 0 then if b₂ = 0 ∧ b₃ = 0 then ⟨4, false, 0⟩ else ⟨2, false, 0⟩
      else ⟨1, false, 0⟩
    | [b₀, b₁] =>
      if b₀ = 0 then ⟨2, true, 0⟩
      else if b₁ = 0 then ⟨2, false, 0⟩
      else ⟨1, false, 0⟩
    | _ => ⟨1, false, 0⟩

/-- The number some bytes write, the most significant one first. -/
def bigEndian (b : List UInt8) : Nat := b.foldl (fun n d => 256 * n + d.toNat) 0

def unit (e : TextEncoding) (b : List UInt8) : Nat := if e.bigEndian then bigEndian b else bigEndian b.reverse

def codePoint (n : Nat) : Option Char := if n.isValidChar then some (Char.ofNat n) else none

/-- UTF-16. -/
def decodePairs (e : TextEncoding) : List UInt8 → Option Text
  | [] => some []
  | a :: b :: s =>
    let n := unit e [a, b]
    if isHighSurrogate n then
      match s with
      | c :: d :: s =>
        if isLowSurrogate (unit e [c, d]) then (decodePairs e s).map (joinSurrogates n (unit e [c, d]) :: ·) else none
      | _ => none
    else do
      let c ← codePoint n
      (decodePairs e s).map (c :: ·)
  | [_] => none

/-- UTF-32. -/
def decodeQuads (e : TextEncoding) : List UInt8 → Option Text
  | [] => some []
  | a :: b :: c :: d :: s => do
    let x ← codePoint (unit e [a, b, c, d])
    (decodeQuads e s).map (x :: ·)
  | _ => none

/-- The text of some bytes. -/
def decodeText (b : List UInt8) : Option Text :=
  let e := detectEncoding b
  match e.width with
  | 1 => ((b.drop e.mark).toByteArray.utf8Decode?).map Array.toList
  | 2 => decodePairs e (b.drop e.mark)
  | _ => decodeQuads e (b.drop e.mark)

/-- `encode()`. -/
def encodeText (s : Text) : List UInt8 := s.flatMap String.utf8EncodeChar

/-- `loads`, of bytes. -/
def loads (b : List UInt8) : Except JsonError (Json F) :=
  match decodeText b with
  | some s => loadsText fl s
  | none => .error (.value "invalid start byte")

/-- `dumps`, as bytes. -/
def dumps (v : Json F) : List UInt8 := encodeText (dumpsText fl v)

end Json

end Py
