/-
`json.dumps`, in the layouts its options choose.

`ensure_ascii` decides how the characters beyond ASCII are written, and the
separators may have white space after them. In every layout `loads` reads a
value back as it was written (`loadsText_write`).
-/
import Dbosify.JsonRoundTrip

namespace Py.Json

/-- The options of `dumps`; its separators are a comma and a colon, with white
space behind. -/
structure Layout where
  ensureAscii : Bool
  afterComma : Text
  afterColon : Text
  afterComma_space : ∀ c ∈ afterComma, isSpace c = true
  afterColon_space : ∀ c ∈ afterColon, isSpace c = true

/-- The default separators, with characters as they are. -/
def Layout.unicode : Layout where
  ensureAscii := false
  afterComma := [' ']
  afterColon := [' ']
  afterComma_space c hc := by rw [List.mem_singleton.1 hc]; rfl
  afterColon_space c hc := by rw [List.mem_singleton.1 hc]; rfl

namespace Layout

variable (l : Layout)

/-- `py_encode_basestring_ascii`, or `py_encode_basestring`. -/
def escape (c : Char) : Text :=
  if l.ensureAscii then Json.escape c
  else
    match shortEscape c with
    | some e => ['\\', e]
    | none => if c.toNat < 32 then unicodeEscape c.toNat else [c]

def quoted (s : Text) : Text := '"' :: (s.flatMap l.escape ++ ['"'])

end Layout

variable {F : Type} (fl : FloatText F) (l : Layout)

mutual

/-- `dumps`: the text of a value, its keys in the order they have. -/
def write : Json F → Text
  | .null => "null".toList
  | .bool true => "true".toList
  | .bool false => "false".toList
  | .int n => intText n
  | .float x => fl.repr x
  | .str s => l.quoted s.toList
  | .arr [] => ['[', ']']
  | .arr (v :: vs) => '[' :: (write v ++ writeItems vs)
  | .obj [] => ['{', '}']
  | .obj ((k, v) :: es) => '{' :: (l.quoted k.toList ++ ':' :: (l.afterColon ++ (write v ++ writeEntries es)))

def writeItems : List (Json F) → Text
  | [] => [']']
  | v :: vs => ',' :: (l.afterComma ++ (write v ++ writeItems vs))

def writeEntries : List (String × Json F) → Text
  | [] => ['}']
  | (k, v) :: es =>
    ',' :: (l.afterComma ++ (l.quoted k.toList ++ ':' :: (l.afterColon ++ (write v ++ writeEntries es))))

end

/-! ## Strings -/

theorem scanString_layout (c : Char) (s : Text) : scanString (l.escape c ++ s) = push c (scanString s) := by
  unfold Layout.escape
  split
  · exact scanString_escape c s
  split
  · next e he => exact scanString_short he s
  · next hnone =>
    split
    · next hlt =>
      rw [scanString_unicode (by omega), Char.ofNat_toNat]
      · simp only [isHighSurrogate, Bool.and_eq_false_iff, decide_eq_false_iff_not]
        omega
      · simp only [isLowSurrogate, Bool.and_eq_false_iff, decide_eq_false_iff_not]
        omega
    · next hge => exact scanString_plain hnone (by omega) s

theorem scanString_written (cs s : Text) : scanString (cs.flatMap l.escape ++ '"' :: s) = .ok (cs, s) := by
  induction cs with
  | nil => exact scanString_quote s
  | cons c cs ih =>
    rw [List.flatMap_cons, List.append_assoc, scanString_layout, ih]
    rfl

/-! ## Values -/

theorem skipSpace_append {w : Text} (h : ∀ c ∈ w, isSpace c = true) (s : Text) : skipSpace (w ++ s) = skipSpace s :=
  List.dropWhile_append_of_pos h

theorem write_opening (v : Json F) : ∃ c t, write fl l v = c :: t ∧ Opening c := by
  cases v with
  | null => exact ⟨'n', _, by simp [write]; rfl, rfl, by decide⟩
  | bool b => cases b <;> exact ⟨_, _, by simp [write]; exact ⟨rfl, rfl⟩, rfl, by decide⟩
  | int n =>
    have h := numberHead_intText n []
    rw [List.append_nil] at h
    obtain ⟨c, t, heq, hc, -⟩ := h.opening
    exact ⟨c, t, heq, hc⟩
  | float x =>
    obtain ⟨c, t, heq, hc, -⟩ := repr_opening fl x
    exact ⟨c, t, heq, hc⟩
  | str s => exact ⟨'"', _, rfl, rfl, by decide⟩
  | arr vs => cases vs <;> exact ⟨'[', _, rfl, rfl, by decide⟩
  | obj es => cases es <;> exact ⟨'{', _, rfl, rfl, by decide⟩

theorem skipSpace_write (v : Json F) (s : Text) : skipSpace (write fl l v ++ s) = write fl l v ++ s := by
  obtain ⟨c, t, h, hc⟩ := write_opening fl l v
  rw [h, List.cons_append, skipSpace_cons hc.notSpace]

theorem follows_writeItems (vs : List (Json F)) (s : Text) : Follows (writeItems fl l vs ++ s) := by
  cases vs with
  | nil => exact follows_cons (by decide) _
  | cons v vs => exact follows_cons (by decide) _

theorem follows_writeEntries (es : List (String × Json F)) (s : Text) : Follows (writeEntries fl l es ++ s) := by
  cases es with
  | nil => exact follows_cons (by decide) _
  | cons e es => exact follows_cons (by decide) _

/-- A key is read as it is written, up to its value. -/
theorem scanKey_written (k : String) (v : Json F) (s : Text) :
    scanKey (l.quoted k.toList ++ ':' :: (l.afterColon ++ (write fl l v ++ s))) = .ok (k, write fl l v ++ s) := by
  have hs : scanString (k.toList.flatMap l.escape ++ ['"'] ++ ':' :: (l.afterColon ++ (write fl l v ++ s))) =
      .ok (k.toList, ':' :: (l.afterColon ++ (write fl l v ++ s))) := by
    rw [List.append_assoc]
    exact scanString_written l _ _
  rw [Layout.quoted, List.cons_append, scanKey]
  simp only [hs, bind, Except.bind]
  rw [skipSpace_cons rfl]
  simp only [skipSpace_append l.afterColon_space, skipSpace_write, String.ofList_toList]

mutual

/-- A value is read as it was written, whatever follows. -/
theorem scanOnce_write : ∀ (v : Json F) {n : Nat} {s : Text}, v.Proper → (write fl l v).length < n → Follows s →
    scanOnce fl n (write fl l v ++ s) = .ok (v, s)
  | _, 0, _, _, hn, _ => absurd hn (Nat.not_lt_zero _)
  | .null, n + 1, s, _, _, _ => by
    have h := scanAtom_word fl (w := "null".toList) (v := .null) (by simp [words]) s
    rw [← h]
    exact scanOnce_atom fl (by decide)
  | .bool true, n + 1, s, _, _, _ => by
    have h := scanAtom_word fl (w := "true".toList) (v := .bool true) (by simp [words]) s
    rw [← h]
    exact scanOnce_atom fl (by decide)
  | .bool false, n + 1, s, _, _, _ => by
    have h := scanAtom_word fl (w := "false".toList) (v := .bool false) (by simp [words]) s
    rw [← h]
    exact scanOnce_atom fl (by decide)
  | .int i, n + 1, s, hp, _, hs => by
    obtain ⟨c, t, heq, -, hc⟩ := (numberHead_intText i s).opening
    have hatom : scanOnce fl (n + 1) (intText i ++ s) = scanAtom fl (intText i ++ s) := by
      rw [heq]
      exact scanOnce_atom fl hc
    rw [write, hatom, scanAtom_number fl (numberHead_intText i s), scanNumber_intText fl hp hs]
  | .float x, n + 1, s, _, _, hs => by
    obtain ⟨c, t, heq, -, hc⟩ := repr_opening fl x
    have hatom : scanOnce fl (n + 1) (fl.repr x ++ s) = scanAtom fl (fl.repr x ++ s) := by
      rw [heq]
      exact scanOnce_atom fl hc
    rw [write, hatom, scanAtom_repr fl x hs]
  | .str k, n + 1, s, _, _, _ => by
    have hs : scanString (k.toList.flatMap l.escape ++ ['"'] ++ s) = .ok (k.toList, s) := by
      rw [List.append_assoc]
      exact scanString_written l _ _
    rw [write, Layout.quoted, List.cons_append, scanOnce, if_pos rfl, hs]
    simp [Except.map]
  | .arr [], n + 1, s, _, _, _ => by
    rw [write, List.cons_append, scanOnce, if_neg (by decide), if_pos rfl, List.cons_append, skipSpace_cons rfl]
    rfl
  | .arr (v :: vs), n + 1, s, hp, hn, _ => by
    have hlen : (write fl l v).length + (writeItems fl l vs).length < n := by
      simp only [write, List.length_cons, List.length_append] at hn
      omega
    have hitems := scanItems_write (v :: vs) hp (s := s) hlen
    have hspace := skipSpace_write fl l v (writeItems fl l vs ++ s)
    rw [write, List.cons_append, List.append_assoc, scanOnce_items, hspace, hitems]
    · rfl
    · obtain ⟨c, t, heq, hc⟩ := write_opening fl l v
      rw [hspace, heq]
      intro d hd
      cases hd
      exact hc.notBracket
  | .obj [], n + 1, s, _, _, _ => by
    rw [write, List.cons_append, scanOnce, if_neg (by decide), if_neg (by decide), if_pos rfl, List.cons_append,
      skipSpace_cons rfl]
    rfl
  | .obj ((k, v) :: es), n + 1, s, hp, hn, _ => by
    have hlen : (write fl l v).length + (writeEntries fl l es).length < n := by
      simp only [write, List.length_cons, List.length_append] at hn
      omega
    have hentries := scanEntries_write ((k, v) :: es) hp.2 (s := s) hlen
    have hspace : skipSpace (l.quoted k.toList ++ ':' :: (l.afterColon ++ (write fl l v ++ (writeEntries fl l es ++ s)))) =
        l.quoted k.toList ++ ':' :: (l.afterColon ++ (write fl l v ++ (writeEntries fl l es ++ s))) := skipSpace_cons rfl _
    have hdict : (Dict.ofEntries ((k, v) :: es)).entries = (k, v) :: es := Dict.entries_ofEntries hp.1
    rw [write, List.cons_append, List.append_assoc, List.cons_append, List.append_assoc, List.append_assoc,
      scanOnce_entries, hspace, hentries]
    · exact congrArg (fun es' => Except.ok (Json.obj es', s)) hdict
    · rw [hspace]
      intro d hd
      cases hd
      decide

theorem scanItems_write : ∀ (vs : List (Json F)) {n : Nat} {s : Text}, ProperItems vs →
    match vs with
    | [] => True
    | v :: vs => (write fl l v).length + (writeItems fl l vs).length < n →
      scanItems fl n (write fl l v ++ (writeItems fl l vs ++ s)) = .ok (v :: vs, s)
  | [], _, _, _ => trivial
  | v :: vs, 0, s, hp => fun hn => absurd hn (Nat.not_lt_zero _)
  | [v], n + 1, s, hp => by
    intro hn
    have hv := scanOnce_write v hp.1 (n := n) (by simp [writeItems] at hn; omega) (follows_writeItems fl l [] s)
    exact scanItems_last fl hv
  | v :: w :: vs, n + 1, s, hp => by
    intro hn
    simp only [writeItems, List.length_cons, List.length_append] at hn
    have hv := scanOnce_write v hp.1 (n := n) (by omega) (follows_writeItems fl l (w :: vs) s)
    have hvs := scanItems_write (w :: vs) hp.2 (n := n) (s := s) (by omega)
    have htext : writeItems fl l (w :: vs) ++ s = ',' :: (l.afterComma ++ (write fl l w ++ (writeItems fl l vs ++ s))) := by
      simp [writeItems]
    rw [htext] at hv ⊢
    rw [scanItems_more fl hv, skipSpace_append l.afterComma_space, skipSpace_write, hvs]
    rfl

theorem scanEntries_write : ∀ (es : List (String × Json F)) {n : Nat} {s : Text}, ProperEntries es →
    match es with
    | [] => True
    | (k, v) :: es => (write fl l v).length + (writeEntries fl l es).length < n →
      scanEntries fl n (l.quoted k.toList ++ ':' :: (l.afterColon ++ (write fl l v ++ (writeEntries fl l es ++ s)))) =
        .ok ((k, v) :: es, s)
  | [], _, _, _ => trivial
  | (k, v) :: es, 0, s, hp => fun hn => absurd hn (Nat.not_lt_zero _)
  | [(k, v)], n + 1, s, hp => by
    intro hn
    have hv := scanOnce_write v hp.1 (n := n) (by simp [writeEntries] at hn; omega) (follows_writeEntries fl l [] s)
    exact scanEntries_last fl (scanKey_written fl l k v _) hv
  | (k, v) :: (k', w) :: es, n + 1, s, hp => by
    intro hn
    simp only [writeEntries, List.length_cons, List.length_append] at hn
    have hv := scanOnce_write v hp.1 (n := n) (by omega) (follows_writeEntries fl l ((k', w) :: es) s)
    have hes := scanEntries_write ((k', w) :: es) hp.2 (n := n) (s := s) (by omega)
    have htext : writeEntries fl l ((k', w) :: es) ++ s = ',' :: (l.afterComma ++
        (l.quoted k'.toList ++ ':' :: (l.afterColon ++ (write fl l w ++ (writeEntries fl l es ++ s))))) := by
      simp [writeEntries]
    have hspace : skipSpace (l.quoted k'.toList ++ ':' :: (l.afterColon ++ (write fl l w ++ (writeEntries fl l es ++ s)))) =
        l.quoted k'.toList ++ ':' :: (l.afterColon ++ (write fl l w ++ (writeEntries fl l es ++ s))) := skipSpace_cons rfl _
    rw [htext] at hv ⊢
    rw [scanEntries_more fl (scanKey_written fl l k v _) hv, skipSpace_append l.afterComma_space, hspace, hes]
    rfl

end

/-- **In every layout, a proper value is read from its text.** -/
theorem loadsText_write {v : Json F} (h : v.Proper) : loadsText fl (write fl l v) = .ok v := by
  have hscan := scanOnce_write fl l v h (n := 2 * (write fl l v).length + 1) (by omega) (s := []) (fun c hc => by cases hc)
  have hspace := skipSpace_write fl l v []
  rw [List.append_nil] at hscan hspace
  rw [loadsText, hspace, hscan]
  rfl

end Py.Json
