/-
What `json.loads` answers.

A value it reads can always be written again (`loads_proper`): its objects have
no key twice, and its integers are short enough. And it answers: the scanner
shortens the text, so its fuel lasts for every text (`loads_fuel`).
-/
import Dbosify.JsonRoundTrip

namespace Py.Json

/-- A scanner's answer: it shortens the text, and does not run out of fuel. -/
def Answers {α : Type} (P : α → Prop) (s : Text) : Except JsonError (α × Text) → Prop
  | .ok (a, t) => P a ∧ t.length < s.length
  | .error e => e ≠ .fuel

namespace Answers

variable {α β : Type} {P : α → Prop} {Q : β → Prop} {s s' : Text} {r : Except JsonError (α × Text)}

theorem longer (h : Answers P s r) (hs : s.length ≤ s'.length) : Answers P s' r := by
  cases r with
  | error e => exact h
  | ok a => exact ⟨h.1, Nat.lt_of_lt_of_le h.2 hs⟩

theorem map {f : α × Text → β × Text} (h : Answers P s r) (hf : ∀ a t, P a → Q (f (a, t)).1 ∧ (f (a, t)).2 = t) :
    Answers Q s (r.map f) := by
  cases r with
  | error e => exact h
  | ok a =>
    have hfa := hf a.1 a.2 h.1
    exact ⟨hfa.1, Nat.lt_of_le_of_lt (Nat.le_of_eq (congrArg List.length hfa.2)) h.2⟩

theorem bind {f : α × Text → Except JsonError (β × Text)} (h : Answers P s r)
    (hf : ∀ a t, P a → t.length < s.length → Answers Q s (f (a, t))) : Answers Q s (r >>= f) := by
  cases r with
  | error e => exact h
  | ok a => exact hf a.1 a.2 h.1 h.2

theorem decode (message : String) : Answers P s (.error (.decode message)) := fun h => by cases h

end Answers

/-! ## Strings -/

theorem answers_push {c : Char} {s s' : Text} {r : Except JsonError (Text × Text)} (h : Answers (fun _ => True) s' r)
    (hs : s'.length ≤ s.length) : Answers (fun _ => True) s (push c r) :=
  (h.longer hs).map fun _ _ _ => ⟨trivial, rfl⟩

theorem answers_string (s : Text) : Answers (fun _ => True) s (scanString s) := by
  fun_induction scanString s
  all_goals first
    | exact .decode _
    | exact fun h => by cases h
    | exact ⟨trivial, by simp⟩
    | exact answers_push ‹Answers _ _ _› (by simp only [List.length_cons]; omega)

/-! ## Numbers -/

theorem intOf_proper {w : Text} {n : Int} (h : intOf w = .ok n) : n.natAbs < 10 ^ intMaxStrDigits := by
  have hmapped : ∀ {ds : Text} {f : Nat → Int}, (∀ m, (f m).natAbs = m) →
      ((Py.int ds).mapError JsonError.value).map f = .ok n → n.natAbs < 10 ^ intMaxStrDigits := by
    intro ds f hf h
    cases hi : Py.int ds with
    | error e =>
      rw [hi] at h
      cases h
    | ok m =>
      rw [hi] at h
      cases h
      exact (hf m).symm ▸ int_lt hi
  cases w with
  | nil => cases h
  | cons c s =>
    rw [intOf] at h
    split at h
    · exact hmapped Int.natAbs_negOfNat h
    · exact hmapped Int.natAbs_natCast h

theorem intOf_error {w : Text} {e : JsonError} (h : intOf w = .error e) : e ≠ .fuel := by
  have hmapped : ∀ {ds : Text} {f : Nat → Int}, ((Py.int ds).mapError JsonError.value).map f = .error e → e ≠ .fuel := by
    intro ds f h
    cases hi : Py.int ds with
    | error x =>
      rw [hi] at h
      cases h
      exact fun h => by cases h
    | ok m =>
      rw [hi] at h
      cases h
  cases w with
  | nil =>
    cases h
    exact fun h => by cases h
  | cons c s =>
    rw [intOf] at h
    split at h
    · exact hmapped h
    · exact hmapped h

theorem length_dropWhile_le (s : Text) : (s.dropWhile Char.isDigit).length ≤ s.length :=
  (List.dropWhile_suffix _).length_le

theorem scanNatural_shortens {s w t : Text} (h : scanNatural s = some (w, t)) : t.length < s.length := by
  cases s with
  | nil => cases h
  | cons c s =>
    have := length_dropWhile_le s
    rw [scanNatural] at h
    split at h
    · cases h
      simp
    · split at h
      · cases h
        simp only [List.length_cons]
        omega
      · cases h

theorem scanInteger_shortens {s w t : Text} (h : scanInteger s = some (w, t)) : t.length < s.length := by
  cases s with
  | nil => cases h
  | cons c s =>
    rw [scanInteger] at h
    split at h
    · obtain ⟨⟨w', t'⟩, hr, heq⟩ := Option.map_eq_some_iff.1 h
      cases heq
      exact Nat.lt_succ_of_lt (scanNatural_shortens hr)
    · exact scanNatural_shortens h

theorem scanFraction_le (s : Text) : (scanFraction s).2.length ≤ s.length := by
  cases s with
  | nil => exact Nat.le_refl _
  | cons c s =>
    have := length_dropWhile_le s
    rw [scanFraction]
    split <;> simp only [List.length_cons] <;> omega

theorem scanSign_le (s : Text) : (scanSign s).2.length ≤ s.length := by
  cases s with
  | nil => exact Nat.le_refl _
  | cons c s =>
    rw [scanSign]
    split <;> simp only [List.length_cons] <;> omega

theorem scanExponent_le (s : Text) : (scanExponent s).2.length ≤ s.length := by
  cases s with
  | nil => exact Nat.le_refl _
  | cons c s =>
    have := length_dropWhile_le (scanSign s).2
    have := scanSign_le s
    rw [scanExponent]
    split <;> simp only [List.length_cons] <;> omega

variable {F : Type} (fl : FloatText F)

theorem answers_number (s : Text) : Answers Proper s (scanNumber fl s) := by
  unfold scanNumber
  split
  · exact .decode _
  · next whole rest h =>
    have hlt := scanInteger_shortens h
    have hfraction := scanFraction_le rest
    have hexponent := scanExponent_le (scanFraction rest).2
    dsimp only
    split
    · cases hi : intOf whole with
      | error e => exact intOf_error hi
      | ok n => exact ⟨intOf_proper hi, hlt⟩
    · exact ⟨trivial, by omega⟩

theorem afterWord_length {w s t : Text} (h : afterWord w s = some t) : w.length + t.length = s.length := by
  induction w generalizing s with
  | nil =>
    cases h
    simp
  | cons c w ih =>
    cases s with
    | nil => cases h
    | cons d s =>
      rw [afterWord] at h
      split at h
      · have := ih h
        simp only [List.length_cons]
        omega
      · cases h

theorem words_proper : ∀ w ∈ words fl, w.2.Proper ∧ 0 < w.1.length := by
  intro w hw
  simp only [words, List.mem_cons, List.not_mem_nil, or_false] at hw
  rcases hw with rfl | rfl | rfl | rfl | rfl | rfl <;> exact ⟨trivial, by simp⟩

theorem answers_atom (s : Text) : Answers Proper s (scanAtom fl s) := by
  unfold scanAtom
  split
  · next r h =>
    obtain ⟨w, hw, hr⟩ := List.exists_of_findSome?_eq_some h
    obtain ⟨t, ht, rfl⟩ := Option.map_eq_some_iff.1 hr
    have hword := words_proper fl w hw
    have hlen := afterWord_length ht
    exact ⟨hword.1, by omega⟩
  · exact answers_number fl s

/-! ## Values -/

theorem skipSpace_le (s : Text) : (skipSpace s).length ≤ s.length := (List.dropWhile_suffix _).length_le

theorem answers_key (s : Text) : Answers (fun _ => True) s (scanKey s) := by
  unfold scanKey
  split
  · next s =>
    refine (answers_string s).longer (Nat.le_succ _) |>.bind ?_
    intro k t _ hlen
    dsimp only
    split
    · next u hu =>
      have hskip := skipSpace_le t
      have hrest := skipSpace_le u
      rw [hu, List.length_cons] at hskip
      exact ⟨trivial, by omega⟩
    · exact .decode _
  · exact .decode _

theorem properEntries_ofEntries {es : List (String × Json F)} (h : ProperEntries es) :
    Proper (.obj (Dict.ofEntries es).entries) :=
  ⟨(Dict.ofEntries es).nodup, properEntries_iff.2 fun e he => properEntries_iff.1 h e (Dict.mem_of_mem_ofEntries he)⟩

/-- By induction on the fuel: every call inside gets a shorter text, or the same
one and less fuel. -/
theorem answers_values (n : Nat) :
    (∀ s, 2 * s.length < n → Answers Proper s (scanOnce fl n s)) ∧
      (∀ s, 2 * s.length + 1 < n → Answers ProperItems s (scanItems fl n s)) ∧
      ∀ s, 2 * s.length + 1 < n → Answers ProperEntries s (scanEntries fl n s) := by
  induction n with
  | zero => exact ⟨fun _ h => by omega, fun _ h => by omega, fun _ h => by omega⟩
  | succ n ih =>
    obtain ⟨ihOnce, ihItems, ihEntries⟩ := ih
    refine ⟨fun s hs => ?_, fun s hs => ?_, fun s hs => ?_⟩
    · cases s with
      | nil => exact .decode _
      | cons c s =>
        simp only [List.length_cons] at hs
        have hskip := skipSpace_le s
        rw [scanOnce]
        split
        · exact ((answers_string s).longer (Nat.le_succ _)).map fun _ _ _ => ⟨trivial, rfl⟩
        split
        · split
          · next t ht =>
            rw [ht, List.length_cons] at hskip
            exact ⟨trivial, by simp only [List.length_cons]; omega⟩
          · exact ((ihItems (skipSpace s) (by omega)).longer (by simp only [List.length_cons]; omega)).map fun _ _ h => ⟨h, rfl⟩
        split
        · split
          · next t ht =>
            rw [ht, List.length_cons] at hskip
            exact ⟨⟨List.nodup_nil, trivial⟩, by simp only [List.length_cons]; omega⟩
          · exact ((ihEntries (skipSpace s) (by omega)).longer (by simp only [List.length_cons]; omega)).map
              fun _ _ h => ⟨properEntries_ofEntries h, rfl⟩
        · exact answers_atom fl _
    · rw [scanItems]
      refine (ihOnce s (by omega)).bind fun v t hv ht => ?_
      have hskip := skipSpace_le t
      dsimp only
      split
      · next u hu =>
        have hrest := skipSpace_le u
        rw [hu, List.length_cons] at hskip
        exact ((ihItems (skipSpace u) (by omega)).longer (by omega)).bind
          fun vs w hvs hw => ⟨⟨hv, hvs⟩, hw⟩
      · next u hu =>
        rw [hu, List.length_cons] at hskip
        exact ⟨⟨hv, trivial⟩, by omega⟩
      · exact .decode _
    · rw [scanEntries]
      refine (answers_key s).bind fun k t _ ht => ?_
      refine ((ihOnce t (by omega)).longer (Nat.le_of_lt ht)).bind fun v u hv hu => ?_
      have hskip := skipSpace_le u
      dsimp only
      split
      · next w hw =>
        have hrest := skipSpace_le w
        rw [hw, List.length_cons] at hskip
        exact ((ihEntries (skipSpace w) (by omega)).longer (by omega)).bind
          fun es x hes hx => ⟨⟨hv, hes⟩, hx⟩
      · next w hw =>
        rw [hw, List.length_cons] at hskip
        exact ⟨⟨hv, trivial⟩, by omega⟩
      · exact .decode _

theorem loadsText_answers (s : Text) :
    (∀ {v}, loadsText fl s = .ok v → v.Proper) ∧ loadsText fl s ≠ .error .fuel := by
  have hskip := skipSpace_le s
  have h := (answers_values fl (2 * s.length + 1)).1 (skipSpace s) (by omega)
  rw [loadsText]
  cases hr : scanOnce fl (2 * s.length + 1) (skipSpace s) with
  | error e =>
    rw [hr] at h
    exact ⟨fun h => (by cases h), fun he => (h (Except.error.inj he)).elim⟩
  | ok r =>
    rw [hr] at h
    simp only [bind, Except.bind]
    split
    · exact ⟨fun hv => Except.ok.inj hv ▸ h.1, fun he => by cases he⟩
    · exact ⟨fun hv => (by cases hv), fun he => by cases he⟩

/-! ## Bytes -/

/-- **What is read can be written.** -/
theorem loads_proper {b : List UInt8} {v : Json F} (h : loads fl b = .ok v) : v.Proper := by
  rw [loads] at h
  split at h
  · exact (loadsText_answers fl _).1 h
  · cases h

/-- **The fuel lasts.** -/
theorem loads_fuel (b : List UInt8) : loads fl b ≠ .error .fuel := by
  rw [loads]
  split
  · exact (loadsText_answers fl _).2
  · exact fun h => by cases h

end Py.Json
