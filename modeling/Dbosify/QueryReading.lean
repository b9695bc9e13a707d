/-
How a query is read: what each token takes of the text, and what each clause
takes of the tokens.

A token takes at least one character, so the tokenizer has fuel enough
(`tokenizeFrom_eq`), and each text is tokenized as what its first token leaves
is (`tokenizeAll_token`). The parser reads clauses and folds them, one at a
time; a `Reading` is the clauses and what ends them, whatever the fold does
(`parseFrom_eq_read`).
-/
import Dbosify.QueryJoin

namespace Dbosify

variable {F : Type} {w : QueryWorld F}

/-! ## What a token takes -/

def isQuote (c : Char) : Prop := c = apostrophe ∨ c = doubleQuote

instance (c : Char) : Decidable (isQuote c) := inferInstanceAs (Decidable (_ ∨ _))

/-- A text without a quote, by a look at its letters. -/
theorem not_isQuote_of_all {l : List Char} (h : l.all (fun c => !decide (isQuote c)) = true) : ∀ c ∈ l, ¬ isQuote c := by
  intro c hc
  simpa using List.all_eq_true.1 h c hc

/-- A string takes the text up to its closing quote. -/
theorem scanQuoted_split {quote : Char} {s t rest : List Char} (h : scanQuoted quote s = some (t, rest)) :
    ∃ used, s = used ++ quote :: rest := by
  fun_induction scanQuoted quote s generalizing t rest with
  | case1 => cases h
  | case2 => cases h; exact ⟨[], rfl⟩
  | case3 cs t' rest' hr ih =>
    cases h
    obtain ⟨used, hu⟩ := ih hr
    exact ⟨quote :: quote :: used, by rw [hu]; rfl⟩
  | case4 => cases h; exact ⟨[], rfl⟩
  | case5 => cases h; exact ⟨[], rfl⟩
  | case6 c cs hne ih =>
    obtain ⟨p, hp, he⟩ := Option.map_eq_some_iff.1 h
    cases he
    obtain ⟨used, hu⟩ := ih hp
    exact ⟨c :: used, by rw [hu]; rfl⟩

theorem scanOp_split {s rest : List Char} {o : QueryOp} (h : scanOp s = some (o, rest)) :
    ∃ used, used ≠ [] ∧ s = used ++ rest ∧ ∀ x ∈ used, ¬ isQuote x := by
  unfold scanOp at h
  split at h <;> cases h
  · exact ⟨['<', '='], by simp, rfl, not_isQuote_of_all (by decide)⟩
  · exact ⟨['>', '='], by simp, rfl, not_isQuote_of_all (by decide)⟩
  · exact ⟨['!', '='], by simp, rfl, not_isQuote_of_all (by decide)⟩
  · exact ⟨['='], by simp, rfl, not_isQuote_of_all (by decide)⟩
  · exact ⟨['<'], by simp, rfl, not_isQuote_of_all (by decide)⟩
  · exact ⟨['>'], by simp, rfl, not_isQuote_of_all (by decide)⟩

theorem not_isQuote_of {p : Char → Bool} (ha : p apostrophe = false) (hd : p doubleQuote = false) {x : Char}
    (hx : p x = true) : ¬ isQuote x := by
  rintro (rfl | rfl)
  · rw [ha] at hx; cases hx
  · rw [hd] at hx; cases hx

theorem not_isQuote_of_decimal {x : Char} (hx : isDecimalChar x = true) : ¬ isQuote x :=
  not_isQuote_of (by decide) (by decide) hx

theorem signOf_split (s : List Char) : ∃ used, s = used ++ (signOf s).2 ∧ ∀ x ∈ used, ¬ isQuote x := by
  unfold signOf
  split
  · exact ⟨['-'], rfl, not_isQuote_of_all (by decide)⟩
  · exact ⟨[], rfl, by simp⟩

theorem scanFraction_split {s t rest : List Char} (h : scanFraction s = some (t, rest)) :
    ∃ used, s = used ++ rest ∧ ∀ x ∈ used, ¬ isQuote x := by
  unfold scanFraction at h
  split at h
  · next s =>
    split at h
    · cases h
    · cases h
      refine ⟨'.' :: s.takeWhile isDecimalChar, by simp, ?_⟩
      rw [List.forall_mem_cons]
      exact ⟨by decide, fun x hx => not_isQuote_of_decimal (List.mem_takeWhile_imp hx)⟩
  · cases h

theorem scanNumber_split {s rest : List Char} {v : Except Exc (Scalar F)} (h : scanNumber w s = some (v, rest)) :
    ∃ used, used ≠ [] ∧ s = used ++ rest ∧ ∀ x ∈ used, ¬ isQuote x := by
  obtain ⟨sign, hsign, hquotes⟩ := signOf_split s
  simp only [scanNumber] at h
  split at h
  · cases h
  · next hne =>
    have hdigits : (signOf s).2 = (signOf s).2.takeWhile isDecimalChar ++ (signOf s).2.dropWhile isDecimalChar :=
      List.takeWhile_append_dropWhile.symm
    have hdecimal : ∀ x ∈ (signOf s).2.takeWhile isDecimalChar, ¬ isQuote x :=
      fun x hx => not_isQuote_of_decimal (List.mem_takeWhile_imp hx)
    have hnil : (signOf s).2.takeWhile isDecimalChar ≠ [] := fun h => hne (by rw [h]; rfl)
    generalize (signOf s).2.takeWhile isDecimalChar = digits at h hdigits hdecimal hnil
    generalize (signOf s).2.dropWhile isDecimalChar = tail at h hdigits
    have hfront : ∀ x ∈ sign ++ digits, ¬ isQuote x := by
      intro x hx
      rcases List.mem_append.1 hx with hx | hx
      · exact hquotes x hx
      · exact hdecimal x hx
    split at h
    · next t rest' hf =>
      cases h
      obtain ⟨used, hu, huse⟩ := scanFraction_split hf
      refine ⟨sign ++ digits ++ used, by simp [hnil], ?_, fun x hx => ?_⟩
      · rw [hsign, hdigits, hu]
        simp
      · rcases List.mem_append.1 hx with hx | hx
        · exact hfront x hx
        · exact huse x hx
    · cases h
      exact ⟨sign ++ digits, by simp [hnil], by rw [List.append_assoc, ← hdigits, ← hsign], hfront⟩

/-- A token takes some of the text; only a string ends in a quote. -/
theorem nextToken_split {s rest : List Char} {t : Token F} (h : nextToken w s = .ok (t, rest)) :
    ∃ used, used ≠ [] ∧ s = used ++ rest ∧ ∀ x ∈ used.getLast?, isQuote x → ∃ u, t = .str u := by
  have hplain {used : List Char} (hne : used ≠ []) (hs : s = used ++ rest) (hq : ∀ x ∈ used, ¬ isQuote x) :
      ∃ used, used ≠ [] ∧ s = used ++ rest ∧ ∀ x ∈ used.getLast?, isQuote x → ∃ u, t = .str u :=
    ⟨used, hne, hs, fun x hx hquote => absurd hquote (hq x (List.mem_of_getLast? hx))⟩
  cases s with
  | nil => cases h
  | cons c cs =>
    by_cases hc : c = apostrophe ∨ c = doubleQuote
    · obtain ⟨p, hp, he⟩ := (nextToken_quote hc).1 h
      cases he
      obtain ⟨used, hu⟩ := scanQuoted_split hp
      refine ⟨c :: (used ++ [c]), by simp, by rw [hu]; simp, fun _ _ _ => ⟨_, rfl⟩⟩
    · simp only [nextToken, if_neg hc] at h
      split at h
      · next o r ho =>
        cases h
        obtain ⟨used, hne, hs, hq⟩ := scanOp_split ho
        exact hplain hne hs hq
      · split at h
        · cases h
          have hs : c :: rest = [c] ++ rest := rfl
          exact hplain (by simp) hs (by simpa [isQuote] using hc)
        · split at h
          · next v r hv =>
            obtain ⟨x, -, he⟩ := except_map_eq_ok.1 h
            cases he
            obtain ⟨used, hne, hs, hq⟩ := scanNumber_split hv
            exact hplain hne hs hq
          · split at h
            · cases h
              have hs : c :: cs = c :: cs.takeWhile isIdentChar ++ cs.dropWhile isIdentChar := by simp
              refine hplain (by simp) hs ?_
              rw [List.forall_mem_cons]
              exact ⟨hc, fun x hx => not_isQuote_of (by decide) (by decide) (List.mem_takeWhile_imp hx)⟩
            · cases h

theorem nextToken_length {s rest : List Char} {t : Token F} (h : nextToken w s = .ok (t, rest)) :
    rest.length < s.length := by
  obtain ⟨used, hne, rfl, -⟩ := nextToken_split h
  have hpos := List.length_pos_iff.2 hne
  rw [List.length_append]
  omega

/-! ## Fuel enough -/

/-- More fuel than characters changes nothing. -/
theorem tokenizeFrom_eq {n : Nat} {s : List Char} (h : s.length ≤ n) :
    tokenizeFrom w n s = tokenizeFrom w s.length s := by
  suffices key : ∀ n m s, s.length ≤ n → s.length ≤ m → tokenizeFrom w n s = tokenizeFrom w m s from
    key n _ s h le_rfl
  intro n
  induction n with
  | zero =>
    intro m s hn _
    obtain rfl : s = [] := List.length_eq_zero_iff.1 (by omega)
    cases m <;> rfl
  | succ n ih =>
    intro m s hn hm
    cases s with
    | nil => cases m <;> rfl
    | cons c cs =>
      rw [List.length_cons] at hn hm
      obtain ⟨m, rfl⟩ : ∃ k, m = k + 1 := ⟨m - 1, by omega⟩
      rw [tokenizeFrom, tokenizeFrom]
      split
      · exact ih m cs (by omega) (by omega)
      · cases ht : nextToken w (c :: cs) with
        | error e => rfl
        | ok p =>
          obtain ⟨t, rest⟩ := p
          have hlen := nextToken_length ht
          rw [List.length_cons] at hlen
          rw [ok_bind, ok_bind]
          dsimp only
          rw [ih m rest (by omega) (by omega)]

/-- The tokens of a text. -/
def tokenizeAll (w : QueryWorld F) (s : List Char) : Except Exc (List (Token F)) := tokenizeFrom w s.length s

theorem tokenizeAll_space {c : Char} (hc : Py.isSpaceChar c = true) (cs : List Char) :
    tokenizeAll w (c :: cs) = tokenizeAll w cs := by
  rw [tokenizeAll, List.length_cons, tokenizeFrom, if_pos hc]
  rfl

/-- After its first token a text is tokenized as what is left would be. -/
theorem tokenizeAll_token {c : Char} {cs rest : List Char} {t : Token F} (hc : Py.isSpaceChar c = false)
    (h : nextToken w (c :: cs) = .ok (t, rest)) :
    tokenizeAll w (c :: cs) = (tokenizeAll w rest).map (t :: ·) := by
  have hlen := nextToken_length h
  rw [List.length_cons] at hlen
  rw [tokenizeAll, List.length_cons, tokenizeFrom, if_neg (by simp [hc]), h, ok_bind]
  dsimp only
  rw [tokenizeFrom_eq (by omega), ← tokenizeAll]
  cases tokenizeAll w rest <;> rfl

/-- The tokenizer stops where no token starts, and where an `int` is too long. -/
theorem tokenizeAll_error {c : Char} {cs : List Char} {e : Exc} (hc : Py.isSpaceChar c = false)
    (h : nextToken w (c :: cs) = .error e) : tokenizeAll w (c :: cs) = .error e := by
  rw [tokenizeAll, List.length_cons, tokenizeFrom, if_neg (by simp [hc]), h]
  rfl

theorem tokens_iff {s : List Char} {ts : List (Token F)} : Tokens w s ts ↔ tokenizeAll w s = .ok ts := by
  constructor
  · intro h
    induction h with
    | nil => rfl
    | space hc _ ih => rw [tokenizeAll_space hc, ih]
    | token hc hn _ ih => rw [tokenizeAll_token hc hn, ih]; rfl
  · exact tokens_of_tokenizeFrom

/-- A text that ends in a quote ends in a string. -/
theorem Tokens.getLast_quote {s : List Char} {ts : List (Token F)} (h : Tokens w s ts) {x : Char}
    (hx : s.getLast? = some x) (hq : isQuote x) : ∃ u, ts.getLast? = some (.str u) := by
  induction h with
  | nil => cases hx
  | @space c cs ts hc h ih =>
    cases cs with
    | nil =>
      cases hx
      rcases hq with rfl | rfl <;> exact absurd hc (by decide)
    | cons c' cs => exact ih (by rwa [List.getLast?_cons_cons] at hx)
  | @token c cs rest t ts hc hn h ih =>
    obtain ⟨used, hne, hs, hlast⟩ := nextToken_split hn
    rw [hs] at hx
    cases rest with
    | nil =>
      rw [List.append_nil] at hx
      obtain ⟨u, rfl⟩ := hlast x hx hq
      cases h
      exact ⟨u, rfl⟩
    | cons r rest =>
      rw [List.getLast?_append_of_ne_nil _ (by simp)] at hx
      obtain ⟨u, hu⟩ := ih hx
      cases ts with
      | nil => cases hu
      | cons t' ts => exact ⟨u, by rwa [List.getLast?_cons_cons]⟩

/-! ## What a clause takes -/

/-- A parser reads from the tokens it takes alone. -/
def Local {α : Type} (parse : List (Token F) → Except Exc (α × List (Token F))) : Prop :=
  ∀ {ts rest : List (Token F)} {x : α}, parse ts = .ok (x, rest) →
    ∃ used, used ≠ [] ∧ ts = used ++ rest ∧ parse used = .ok (x, [])

theorem parseItems_local : Local (parseItems w) := by
  intro ts rest xs h
  fun_induction parseItems w ts generalizing xs rest with
  | case1 => cases h
  | case2 => cases h; exact ⟨[.rparen], by simp, rfl, rfl⟩
  | case3 => cases h
  | case4 item hne x hl ts ih =>
    obtain ⟨⟨ys, rest'⟩, hys, he⟩ := except_map_eq_ok.1 h
    cases he
    obtain ⟨used, -, rfl, hp⟩ := ih hys
    refine ⟨item :: .comma :: used, by simp, rfl, ?_⟩
    rw [parseItems_literal hl]
    dsimp only
    rw [hp]
    rfl
  | case5 => cases h
  | case6 item hne x hl ts =>
    cases h
    exact ⟨[item, .rparen], by simp, rfl, parseItems_literal hl _⟩
  | case7 => cases h

theorem parseField_local : Local (parseField w) := by
  intro ts rest x h
  cases ts with
  | nil => cases h
  | cons tok ts =>
    cases tok with
    | ident name =>
      simp only [parseField] at h
      split at h
      · cases h
      · next hk =>
        cases h
        exact ⟨[.ident x], by simp, rfl, by simp only [parseField, if_neg hk]⟩
    | _ => cases h

theorem parseOp_local (field : String) : Local (parseOp w field) := by
  intro ts rest x h
  cases ts with
  | nil => cases h
  | cons tok ts =>
    cases tok with
    | op => cases h; exact ⟨[.op x], by simp, rfl, rfl⟩
    | _ =>
      simp only [parseOp] at h
      split at h
      · next hk =>
        cases h
        exact ⟨[_], by simp, rfl, by simp only [parseOp, if_pos hk]⟩
      · next hk =>
        split at h
        · next hk' =>
          cases h
          exact ⟨[_], by simp, rfl, by simp only [parseOp, if_neg hk, if_pos hk']⟩
        · cases h

theorem parseValue_local (field : String) (op : QueryOp) : Local (parseValue w field op) := by
  intro ts rest x h
  cases ts with
  | nil => cases h
  | cons tok ts =>
    simp only [parseValue] at h
    by_cases ho : op = .isIn
    · rw [if_pos ho] at h
      cases tok with
      | lparen =>
        obtain ⟨⟨xs, rest'⟩, hxs, he⟩ := except_map_eq_ok.1 h
        cases he
        obtain ⟨used, -, rfl, hp⟩ := parseItems_local hxs
        refine ⟨.lparen :: used, by simp, rfl, ?_⟩
        simp only [parseValue, if_pos ho, hp]
        rfl
      | _ => cases h
    · rw [if_neg ho] at h
      cases tok <;> cases h
      all_goals exact ⟨[_], by simp, rfl, by simp only [parseValue, if_neg ho]⟩

theorem parseClause_local : Local (parseClause w) := by
  intro ts rest c h
  obtain ⟨⟨field, r⟩, hf, h⟩ := bind_eq_ok.1 h
  obtain ⟨⟨op, r'⟩, ho, h⟩ := bind_eq_ok.1 h
  obtain ⟨⟨value, r''⟩, hv, h⟩ := bind_eq_ok.1 h
  cases h
  obtain ⟨us, hne, rfl, hus⟩ := parseField_local hf
  obtain ⟨vs, -, rfl, hvs⟩ := parseOp_local field ho
  obtain ⟨xs, -, rfl, hxs⟩ := parseValue_local field op hv
  refine ⟨us ++ (vs ++ xs), by simp [hne], by simp, ?_⟩
  simp only [parseClause, parseField_stable _ hus, parseOp_stable field _ hvs, hxs, ok_bind, List.nil_append]

theorem parseClause_length {ts rest : List (Token F)} {c : Clause F} (h : parseClause w ts = .ok (c, rest)) :
    rest.length < ts.length := by
  obtain ⟨used, hne, rfl, -⟩ := parseClause_local h
  have hpos := List.length_pos_iff.2 hne
  rw [List.length_append]
  omega

/-! ## A reading: the clauses, and what ends them -/

/-- What ends the clauses of a text: nothing more, a `GROUP BY`, or what cannot
be read. -/
inductive QueryEnding
  | complete
  | grouped (field : SystemField)
  | broken (e : Exc)

/-- What a filter is after the ending. -/
def QueryEnding.finish (q : VisibilityQuery F) : QueryEnding → Except Exc (VisibilityQuery F)
  | complete => .ok q
  | grouped field => .ok { q with groupBy := some field }
  | broken e => .error e

structure Reading (F : Type) where
  clauses : List (Clause F)
  ending : QueryEnding

def Reading.cons (c : Clause F) (r : Reading F) : Reading F := { r with clauses := c :: r.clauses }

/-- The filter the clauses make of another. -/
def Reading.apply (w : QueryWorld F) (q : VisibilityQuery F) (r : Reading F) : Except Exc (VisibilityQuery F) := do
  let q ← r.clauses.foldlM (applyClause w) q
  r.ending.finish q

theorem Reading.apply_cons (q : VisibilityQuery F) (c : Clause F) (r : Reading F) :
    (r.cons c).apply w q = (do r.apply w (← applyClause w q c)) := by
  simp only [Reading.apply, Reading.cons, List.foldlM_cons]
  cases applyClause w q c <;> rfl

/-- What the tokens after `GROUP` make of the ending. -/
def groupEnding (toks : List (Token F)) : QueryEnding :=
  match parseGroupBy ({} : VisibilityQuery F) toks with
  | .ok q => q.groupBy.elim .complete .grouped
  | .error e => .broken e

theorem parseGroupBy_eq (q : VisibilityQuery F) (toks : List (Token F)) :
    parseGroupBy q toks = (groupEnding toks).finish q := by
  simp only [groupEnding, parseGroupBy]
  split
  · split
    · rfl
    · split
      · split
        · split <;> rfl
        · split <;> rfl
        · rfl
      · rfl
  · rfl

/-- How a text goes on after a clause. -/
def readAfter (w : QueryWorld F) (next : List (Token F) → Reading F) (c : Clause F) : List (Token F) → Reading F
  | [] => ⟨[c], .complete⟩
  | conj :: rest =>
    if keyword "AND" conj then
      if rest.isEmpty then
        ⟨[c], .broken (.visibilityQueryError ("Trailing AND with no clause." ++ " " ++ supported))⟩
      else (next rest).cons c
    else if keyword "GROUP" conj then (next (conj :: rest)).cons c
    else if keyword "OR" conj then
      ⟨[c], .broken (.visibilityQueryError ("OR is not supported; only AND." ++ " " ++ supported))⟩
    else
      ⟨[c], .broken (.visibilityQueryError
        ("Expected AND or end of query, got " ++ conj.repr w ++ "." ++ " " ++ supported))⟩

/-- The reading of a text, for no more clauses than the fuel. -/
def readFrom (w : QueryWorld F) : Nat → List (Token F) → Reading F
  | _, [] => ⟨[], .complete⟩
  | 0, _ :: _ => ⟨[], .broken .assertionError⟩
  | n + 1, tok :: toks =>
    if keyword "GROUP" tok then ⟨[], groupEnding toks⟩
    else
      match parseClause w (tok :: toks) with
      | .error e => ⟨[], .broken e⟩
      | .ok (c, rest) => readAfter w (readFrom w n) c rest

theorem readFrom_cons (n : Nat) (tok : Token F) (toks : List (Token F)) : readFrom w (n + 1) (tok :: toks) =
    if keyword "GROUP" tok then ⟨[], groupEnding toks⟩
    else
      match parseClause w (tok :: toks) with
      | .error e => ⟨[], .broken e⟩
      | .ok (c, rest) => readAfter w (readFrom w n) c rest := rfl

def read (w : QueryWorld F) (toks : List (Token F)) : Reading F := readFrom w toks.length toks

theorem read_cons (tok : Token F) (toks : List (Token F)) :
    read w (tok :: toks) = readFrom w (toks.length + 1) (tok :: toks) := rfl

/-- The parser folds the clauses that are read. -/
theorem parseFrom_eq_apply (n : Nat) (q : VisibilityQuery F) (toks : List (Token F)) :
    parseFrom w n q toks = (readFrom w n toks).apply w q := by
  induction n generalizing q toks with
  | zero => cases toks <;> rfl
  | succ n ih =>
    cases toks with
    | nil => rfl
    | cons tok toks =>
      rw [parseFrom, readFrom_cons]
      split
      · rw [parseGroupBy_eq]
        rfl
      · cases parseClause w (tok :: toks) with
        | error e => rfl
        | ok p =>
          obtain ⟨c, rest⟩ := p
          rw [ok_bind]
          dsimp only
          have hlast (ending : QueryEnding) :
              (⟨[c], ending⟩ : Reading F).apply w q = (do ending.finish (← applyClause w q c)) := by
            simp only [Reading.apply, List.foldlM_cons, List.foldlM_nil]
            cases applyClause w q c <;> rfl
          cases rest with
          | nil => rw [readAfter, hlast]; rfl
          | cons conj rest =>
            simp only [readAfter]
            split
            · split
              · rw [hlast]; rfl
              · rw [Reading.apply_cons]; simp only [ih]
            · split
              · rw [Reading.apply_cons]; simp only [ih]
              · split <;> rw [hlast] <;> rfl

theorem readAfter_congr {next next' : List (Token F) → Reading F} (c : Clause F) {rest : List (Token F)}
    (h : ∀ us : List (Token F), us.length ≤ rest.length → next us = next' us) :
    readAfter w next c rest = readAfter w next' c rest := by
  cases rest with
  | nil => rfl
  | cons conj rest =>
    rw [readAfter, readAfter, h rest (by simp), h (conj :: rest) le_rfl]

/-- More fuel than tokens changes nothing. -/
theorem readFrom_eq {n : Nat} {toks : List (Token F)} (h : toks.length ≤ n) : readFrom w n toks = read w toks := by
  suffices key : ∀ n m toks, toks.length ≤ n → toks.length ≤ m → readFrom w n toks = readFrom w m toks from
    key n _ toks h le_rfl
  intro n
  induction n with
  | zero =>
    intro m toks hn _
    obtain rfl : toks = [] := List.length_eq_zero_iff.1 (by omega)
    cases m <;> rfl
  | succ n ih =>
    intro m toks hn hm
    cases toks with
    | nil => cases m <;> rfl
    | cons tok toks =>
      rw [List.length_cons] at hn hm
      obtain ⟨m, rfl⟩ : ∃ k, m = k + 1 := ⟨m - 1, by omega⟩
      rw [readFrom_cons, readFrom_cons]
      cases hc : parseClause w (tok :: toks) with
      | error e => rfl
      | ok p =>
        obtain ⟨c, rest⟩ := p
        have hlen := parseClause_length hc
        rw [List.length_cons] at hlen
        dsimp only
        rw [readAfter_congr c fun us hus => ih m us (by omega) (by omega)]

theorem read_group {tok : Token F} (hk : keyword "GROUP" tok = true) (toks : List (Token F)) :
    read w (tok :: toks) = ⟨[], groupEnding toks⟩ := by
  rw [read_cons, readFrom_cons, if_pos hk]

theorem read_error {tok : Token F} {toks : List (Token F)} {e : Exc} (hk : ¬ keyword "GROUP" tok = true)
    (hc : parseClause w (tok :: toks) = .error e) : read w (tok :: toks) = ⟨[], .broken e⟩ := by
  rw [read_cons, readFrom_cons, if_neg hk, hc]

/-- After its first clause a text is read as what is left would be. -/
theorem read_clause {toks rest : List (Token F)} {c : Clause F} (hc : parseClause w toks = .ok (c, rest)) :
    read w toks = readAfter w (read w) c rest := by
  cases toks with
  | nil => cases hc
  | cons tok toks =>
    have hlen := parseClause_length hc
    rw [List.length_cons] at hlen
    rw [read_cons, readFrom_cons, if_neg (keyword_group hc), hc]
    dsimp only
    exact readAfter_congr c fun us hus => readFrom_eq (by omega)

/-- A query is what its reading makes of the empty filter. -/
theorem parseFrom_eq_read (toks : List (Token F)) :
    parseFrom w toks.length {} toks = (read w toks).apply w {} := parseFrom_eq_apply _ _ _

/-- `AND` and `GROUP` are two keywords. -/
theorem not_keyword_group {tok : Token F} (h : keyword "AND" tok = true) : ¬ keyword "GROUP" tok = true := by
  cases tok with
  | ident s =>
    intro hg
    have ha : asciiUpper s = "AND" := of_decide_eq_true h
    have hg : asciiUpper s = "GROUP" := of_decide_eq_true hg
    rw [ha] at hg
    exact absurd hg (by decide)
  | _ => cases h

end Dbosify
