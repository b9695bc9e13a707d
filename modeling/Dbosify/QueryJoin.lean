/-
`q1 AND q2`: what the parser makes of two queries joined.

A space ends every token but a quoted string, and a string that is closed stays
closed whatever follows. So the tokens of the joined query are those of the
first, `AND`, and those of the second (`tokens_append`), its clauses those of
both (`Clauses.append`), and they are folded one after the other.
-/
import Dbosify.VisibilityQuery
import Mathlib.Data.List.TakeWhile

namespace Dbosify

variable {F : Type} {w : QueryWorld F}

/-! ## Where tokens end -/

/-- A character that continues no token but a string. -/
structure EndsToken (d : Char) : Prop where
  decimal : isDecimalChar d = false
  ident : isIdentChar d = false
  eq : d ≠ '='

theorem endsToken_space : EndsToken ' ' := ⟨by decide, by decide, by decide⟩

theorem EndsToken.ne_point {d : Char} (hd : EndsToken d) : d ≠ '.' := by
  rintro rfl
  exact absurd hd.ident (by decide)

theorem takeWhile_append_end {p : Char → Bool} {d : Char} (hp : p d = false) (s u : List Char) :
    (s ++ d :: u).takeWhile p = s.takeWhile p := by
  induction s with
  | nil => rw [List.nil_append, List.takeWhile_cons, hp]; rfl
  | cons c s ih =>
    rw [List.cons_append, List.takeWhile_cons, List.takeWhile_cons, ih]

theorem dropWhile_append_end {p : Char → Bool} {d : Char} (hp : p d = false) (s u : List Char) :
    (s ++ d :: u).dropWhile p = s.dropWhile p ++ d :: u := by
  induction s with
  | nil => rw [List.nil_append, List.dropWhile_cons, hp]; rfl
  | cons c s ih =>
    rw [List.cons_append, List.dropWhile_cons, List.dropWhile_cons, ih]
    split <;> rfl

theorem scanQuoted_eq_none {quote : Char} {s : List Char} : scanQuoted quote s = none ↔ quote ∉ s := by
  fun_induction scanQuoted quote s with
  | case1 => simp
  | case2 => simp
  | case3 => simp
  | case4 => simp
  | case5 => simp
  | case6 c cs hne ih => simp [ih, Ne.symm hne]

theorem scanQuoted_cons_of_ne {quote c : Char} (hne : c ≠ quote) (cs : List Char) :
    scanQuoted quote (c :: cs) = (scanQuoted quote cs).map fun p => (c :: p.1, p.2) := by
  rw [scanQuoted.eq_def]
  exact if_neg hne

/-- A string that is closed before what is not its quote is closed there
whatever follows; else what is left starts with a quote that nothing closes. -/
theorem scanQuoted_append {quote d : Char} {s t rest : List Char} (u : List Char)
    (h : scanQuoted quote s = some (t, rest)) (hd : rest = [] → d ≠ quote) :
    scanQuoted quote (s ++ d :: u) = some (t, rest ++ d :: u) ∨ ∃ r, rest = quote :: r ∧ quote ∉ r := by
  fun_induction scanQuoted quote s generalizing t rest with
  | case1 => cases h
  | case2 =>
    cases h
    exact .inl (by simp [scanQuoted, hd rfl])
  | case3 cs t' rest' hr ih =>
    cases h
    rcases ih hr hd with hs | hs
    · exact .inl (by simp [scanQuoted, hs])
    · exact .inr hs
  | case4 cs hr ih =>
    cases h
    exact .inr ⟨cs, rfl, scanQuoted_eq_none.1 hr⟩
  | case5 c' cs hne =>
    cases h
    exact .inl (by simp [scanQuoted, hne])
  | case6 c cs hne ih =>
    rw [Option.map_eq_some_iff] at h
    obtain ⟨p, hp, hpe⟩ := h
    cases hpe
    rcases ih hp hd with hs | hs
    · exact .inl (by rw [List.cons_append, scanQuoted_cons_of_ne hne, hs]; rfl)
    · exact .inr hs

theorem scanOp_eq_none {c : Char} (hc : c ∉ ['<', '>', '!', '=']) (cs : List Char) : scanOp (c :: cs) = none := by
  unfold scanOp
  split <;> simp_all

theorem scanOp_append {d : Char} (hd : d ≠ '=') (c : Char) (cs u : List Char) :
    scanOp (c :: cs ++ d :: u) = (scanOp (c :: cs)).map fun p => (p.1, p.2 ++ d :: u) := by
  by_cases hc : c ∈ ['<', '>', '!', '=']
  · cases cs with
    | nil =>
      simp only [List.mem_cons, List.not_mem_nil, or_false] at hc
      rcases hc with rfl | rfl | rfl | rfl <;> simp [scanOp, hd]
    | cons c' cs =>
      by_cases he : c' = '='
      · subst he
        simp only [List.mem_cons, List.not_mem_nil, or_false] at hc
        rcases hc with rfl | rfl | rfl | rfl <;> rfl
      · simp only [List.mem_cons, List.not_mem_nil, or_false] at hc
        rcases hc with rfl | rfl | rfl | rfl <;> simp [scanOp, he]
  · rw [List.cons_append, scanOp_eq_none hc, scanOp_eq_none hc]
    rfl

theorem signOf_append (c : Char) (cs u : List Char) :
    signOf (c :: cs ++ u) = ((signOf (c :: cs)).1, (signOf (c :: cs)).2 ++ u) := by
  unfold signOf
  rw [List.cons_append]
  split <;> simp_all

theorem scanFraction_append {d : Char} (hd : EndsToken d) (s u : List Char) :
    scanFraction (s ++ d :: u) = (scanFraction s).map fun p => (p.1, p.2 ++ d :: u) := by
  cases s with
  | nil => simp [scanFraction, hd.ne_point]
  | cons c cs =>
    rw [List.cons_append]
    by_cases hc : c = '.'
    · subst hc
      simp only [scanFraction, takeWhile_append_end hd.decimal, dropWhile_append_end hd.decimal]
      split <;> rfl
    · simp [scanFraction, hc]

theorem scanNumber_append {d : Char} (hd : EndsToken d) (c : Char) (cs u : List Char) :
    scanNumber w (c :: cs ++ d :: u) = (scanNumber w (c :: cs)).map fun p => (p.1, p.2 ++ d :: u) := by
  simp only [scanNumber, signOf_append, takeWhile_append_end hd.decimal, dropWhile_append_end hd.decimal,
    scanFraction_append hd]
  split
  · rfl
  · cases scanFraction ((signOf (c :: cs)).2.dropWhile isDecimalChar) <;> rfl

/-! ## The tokens of a text -/

/-- What the tokenizer does, as a relation: white space is passed over, and
each other start of the text is one of a token. -/
inductive Tokens (w : QueryWorld F) : List Char → List (Token F) → Prop
  | nil : Tokens w [] []
  | space {c : Char} {cs : List Char} {ts : List (Token F)} (hc : Py.isSpaceChar c = true) (h : Tokens w cs ts) :
    Tokens w (c :: cs) ts
  | token {c : Char} {cs rest : List Char} {t : Token F} {ts : List (Token F)} (hc : Py.isSpaceChar c = false)
    (hn : nextToken w (c :: cs) = .ok (t, rest)) (h : Tokens w rest ts) : Tokens w (c :: cs) (t :: ts)

theorem tokens_of_tokenizeFrom {n : Nat} {s : List Char} {ts : List (Token F)} (h : tokenizeFrom w n s = .ok ts) :
    Tokens w s ts := by
  induction n generalizing s ts with
  | zero =>
    cases s with
    | nil => cases h; exact .nil
    | cons c cs => cases h
  | succ n ih =>
    cases s with
    | nil => cases h; exact .nil
    | cons c cs =>
      rw [tokenizeFrom] at h
      split at h
      · next hc => exact .space hc (ih h)
      · next hc =>
        obtain ⟨⟨t, rest⟩, hn, h⟩ := bind_eq_ok.1 h
        obtain ⟨us, hus, h⟩ := bind_eq_ok.1 h
        cases h
        exact .token (by simpa using hc) hn (ih hus)

theorem Tokens.token_inv {c : Char} {cs : List Char} {ts : List (Token F)} (hc : Py.isSpaceChar c = false)
    (h : Tokens w (c :: cs) ts) :
    ∃ t rest us, nextToken w (c :: cs) = .ok (t, rest) ∧ Tokens w rest us ∧ ts = t :: us := by
  cases h with
  | space hs h => rw [hc] at hs; cases hs
  | token _ hn h => exact ⟨_, _, _, hn, h, rfl⟩

theorem nextToken_quote {c : Char} {cs : List Char} (hc : c = apostrophe ∨ c = doubleQuote) {p : Token F × List Char} :
    nextToken w (c :: cs) = .ok p ↔ ∃ q, scanQuoted c cs = some q ∧ p = (.str (.ofList q.1), q.2) := by
  simp only [nextToken, if_pos hc]
  cases scanQuoted c cs with
  | none => simp [reject]
  | some q => simp [eq_comm]

/-- A token ends before what ends tokens, unless it is a string whose closing
quote was a doubled one; and then the rest is no tokens' text. -/
theorem nextToken_append {c d : Char} {cs rest : List Char} {t : Token F} {ts : List (Token F)} (hd : EndsToken d)
    (u : List Char) (hn : nextToken w (c :: cs) = .ok (t, rest)) (hr : Tokens w rest ts)
    (hend : c = apostrophe ∨ c = doubleQuote → rest = [] → d ≠ c) :
    nextToken w (c :: cs ++ d :: u) = .ok (t, rest ++ d :: u) := by
  by_cases hc : c = apostrophe ∨ c = doubleQuote
  · obtain ⟨q, hq, hp⟩ := (nextToken_quote hc).1 hn
    cases hp
    rcases scanQuoted_append u hq (hend hc) with hs | ⟨r, hre, hnot⟩
    · exact (nextToken_quote hc).2 ⟨_, hs, rfl⟩
    · -- The rest would start a string that nothing closes.
      rw [hre] at hr
      have hcs : Py.isSpaceChar c = false := by rcases hc with rfl | rfl <;> decide
      obtain ⟨t', rest', us, hn', -⟩ := hr.token_inv hcs
      obtain ⟨q', hq', -⟩ := (nextToken_quote hc).1 hn'
      rw [scanQuoted_eq_none.2 hnot] at hq'
      cases hq'
  · rw [List.cons_append]
    simp only [nextToken, if_neg hc] at hn ⊢
    rw [← List.cons_append, scanOp_append hd.eq]
    cases ho : scanOp (c :: cs) with
    | some p =>
      rw [ho] at hn
      cases hn
      rfl
    | none =>
      rw [ho] at hn
      dsimp only [Option.map_none] at hn ⊢
      cases hp : (punctuation c : Option (Token F)) with
      | some t' =>
        rw [hp] at hn
        cases hn
        rfl
      | none =>
        rw [hp] at hn
        dsimp only at hn ⊢
        rw [scanNumber_append hd]
        cases hnum : scanNumber w (c :: cs) with
        | some p =>
          rw [hnum] at hn
          dsimp only [Option.map_some] at hn ⊢
          obtain ⟨x, hx, he⟩ := except_map_eq_ok.1 hn
          cases he
          rw [hx]
          rfl
        | none =>
          rw [hnum] at hn
          dsimp only [Option.map_none] at hn ⊢
          split at hn
          · next hi =>
            cases hn
            rw [if_pos hi, takeWhile_append_end hd.ident, dropWhile_append_end hd.ident]
          · cases hn

/-- A space joins the tokens of two texts. -/
theorem Tokens.append {s u : List Char} {ts us : List (Token F)} (hs : Tokens w s ts) (hu : Tokens w u us) :
    Tokens w (s ++ ' ' :: u) (ts ++ us) := by
  induction hs with
  | nil => exact .space (by decide) hu
  | space hc h ih => exact .space hc ih
  | token hc hn h ih =>
    refine .token hc (nextToken_append endsToken_space u hn h fun hq _ => ?_) ih
    rcases hq with rfl | rfl <;> decide

theorem Tokens.unique {s : List Char} {ts us : List (Token F)} (h : Tokens w s ts) (h' : Tokens w s us) : ts = us := by
  induction h generalizing us with
  | nil => cases h'; rfl
  | space hc h ih =>
    cases h' with
    | space _ h' => exact ih h'
    | token hc' => rw [hc] at hc'; cases hc'
  | token hc hn h ih =>
    obtain ⟨t', rest', us', hn', h', he⟩ := h'.token_inv hc
    rw [hn] at hn'
    cases hn'
    rw [he, ih h']

theorem tokens_of_isSpace {s : List Char} (h : ∀ c ∈ s, Py.isSpaceChar c = true) : Tokens w s [] := by
  induction s with
  | nil => exact .nil
  | cons c s ih =>
    rw [List.forall_mem_cons] at h
    exact .space h.1 (ih h.2)

theorem strip_eq_nil {s : List Char} (h : (Py.strip s).isEmpty = true) : ∀ c ∈ s, Py.isSpaceChar c = true := by
  rw [Py.strip, List.isEmpty_reverse, List.isEmpty_iff, List.dropWhile_eq_nil_iff] at h
  intro c hc
  rw [← List.takeWhile_append_dropWhile (p := Py.isSpaceChar) (l := s), List.mem_append] at hc
  rcases hc with hc | hc
  · exact List.mem_takeWhile_imp hc
  · exact h c (List.mem_reverse.2 hc)

/-- An accepted query is its clauses, folded from the empty filter. -/
theorem parseQuery_tokens {query : String} {v : VisibilityQuery F} (h : parseQuery w query = .ok v) :
    ∃ n toks, Tokens w query.toList toks ∧ parseFrom w n {} toks = .ok v := by
  rw [parseQuery] at h
  split at h
  · next hs =>
    cases h
    exact ⟨0, [], tokens_of_isSpace (strip_eq_nil hs), rfl⟩
  · obtain ⟨toks, ht, h⟩ := bind_eq_ok.1 h
    exact ⟨toks.length, toks, tokens_of_tokenizeFrom ht, h⟩

/-! ## The clauses of a text -/

/-- What a parser takes from the front of the tokens, it takes whatever
follows. -/
def PrefixStable {α : Type} (parse : List (Token F) → Except Exc (α × List (Token F))) : Prop :=
  ∀ {ts rest : List (Token F)} {x : α} (us : List (Token F)), parse ts = .ok (x, rest) →
    parse (ts ++ us) = .ok (x, rest ++ us)

theorem parseItems_literal {item : Token F} {x : Scalar F} (hl : item.literal = some x) (ts : List (Token F)) :
    parseItems w (item :: ts) =
      match ts with
      | .comma :: rest => (parseItems w rest).map fun p => (x :: p.1, p.2)
      | [] => failQuery "Unterminated IN list (missing ')')."
      | .rparen :: rest => .ok ([x], rest)
      | _ => failQuery "Expected ',' or ')' in IN list." := by
  rw [parseItems.eq_def]
  cases item <;> cases hl <;> cases ts <;> rfl

theorem parseItems_stable : PrefixStable (parseItems w) := by
  intro ts rest xs us h
  fun_induction parseItems w ts generalizing xs rest with
  | case1 => cases h
  | case2 => cases h; rfl
  | case3 => cases h
  | case4 item hne x hl ts ih =>
    obtain ⟨⟨ys, rest'⟩, hys, he⟩ := except_map_eq_ok.1 h
    cases he
    rw [List.cons_append, List.cons_append, parseItems_literal hl]
    dsimp only
    rw [ih hys]
    rfl
  | case5 => cases h
  | case6 item hne x hl ts =>
    cases h
    exact parseItems_literal hl _
  | case7 => cases h

theorem parseField_stable : PrefixStable (parseField w) := by
  intro ts rest x us h
  cases ts with
  | nil => cases h
  | cons tok ts =>
    cases tok with
    | ident name =>
      simp only [parseField, List.cons_append] at h ⊢
      split at h
      · cases h
      · next hk => cases h; rw [if_neg hk]
    | _ => cases h

theorem parseOp_stable (field : String) : PrefixStable (parseOp w field) := by
  intro ts rest x us h
  cases ts with
  | nil => cases h
  | cons tok ts =>
    by_cases ho : ∃ o, tok = .op o
    · obtain ⟨o, rfl⟩ := ho
      cases h
      rfl
    · have hp (ts : List (Token F)) : parseOp w field (tok :: ts) =
          if keyword "IN" tok then .ok (.isIn, ts)
          else if keyword "STARTS_WITH" tok then .ok (.startsWith, ts)
          else failQuery ("Expected an operator after " ++ quoted field ++ ", got " ++ tok.repr w ++ ".") := by
        cases tok with
        | op o => exact absurd ⟨o, rfl⟩ ho
        | _ => rfl
      rw [List.cons_append]
      rw [hp] at h ⊢
      split at h
      · next hk => cases h; rw [if_pos hk]
      · next hk =>
        rw [if_neg hk]
        split at h
        · next hk => cases h; rw [if_pos hk]
        · cases h

theorem parseValue_stable (field : String) (op : QueryOp) : PrefixStable (parseValue w field op) := by
  intro ts rest x us h
  cases ts with
  | nil => cases h
  | cons tok ts =>
    simp only [parseValue, List.cons_append] at h ⊢
    by_cases ho : op = .isIn
    · rw [if_pos ho] at h ⊢
      cases tok with
      | lparen =>
        obtain ⟨⟨xs, rest'⟩, hxs, he⟩ := except_map_eq_ok.1 h
        cases he
        dsimp only
        rw [parseItems_stable us hxs]
        rfl
      | _ => cases h
    · rw [if_neg ho] at h ⊢
      cases tok <;> cases h <;> rfl

theorem parseClause_stable : PrefixStable (parseClause w) := by
  intro ts rest c us h
  obtain ⟨⟨field, r⟩, hf, h⟩ := bind_eq_ok.1 h
  obtain ⟨⟨op, r'⟩, ho, h⟩ := bind_eq_ok.1 h
  obtain ⟨⟨value, r''⟩, hv, h⟩ := bind_eq_ok.1 h
  cases h
  simp only [parseClause, parseField_stable us hf, parseOp_stable field us ho, parseValue_stable field op us hv, ok_bind]

/-- A clause starts with no keyword. -/
theorem parseClause_keyword {name : String} {tok : Token F} (hk : keyword name tok = true)
    (hn : name ∈ ["AND", "OR", "ORDER", "GROUP", "IN", "STARTS_WITH"]) (ts : List (Token F))
    {p : Clause F × List (Token F)} : parseClause w (tok :: ts) ≠ .ok p := by
  cases tok with
  | ident s =>
    intro h
    obtain ⟨q, hq, -⟩ := bind_eq_ok.1 h
    rw [parseField, if_pos] at hq
    · cases hq
    · rw [of_decide_eq_true hk]
      exact hn
  | _ => cases hk

/-! ## Joining -/

theorem groupBy_of_parseGroupBy {q v : VisibilityQuery F} {ts : List (Token F)} (h : parseGroupBy q ts = .ok v) :
    v.groupBy ≠ none := by
  intro hv
  unfold parseGroupBy at h
  split at h
  · split at h
    · cases h
    · split at h
      · split at h
        · split at h
          · cases h; cases hv
          · cases h
        · split at h
          · cases h; cases hv
          · cases h
        · cases h
      · cases h
  · cases h

/-- The clauses of the tokens, with an `AND` between each two. -/
inductive Clauses (w : QueryWorld F) : List (Token F) → List (Clause F) → Prop
  | last {tok : Token F} {toks : List (Token F)} {c : Clause F} (hc : parseClause w (tok :: toks) = .ok (c, [])) :
    Clauses w (tok :: toks) [c]
  | more {tok conj : Token F} {toks us : List (Token F)} {c : Clause F} {cs : List (Clause F)}
    (hc : parseClause w (tok :: toks) = .ok (c, conj :: us)) (ha : keyword "AND" conj = true) (h : Clauses w us cs) :
    Clauses w (tok :: toks) (c :: cs)

theorem Clauses.ne_nil {ts : List (Token F)} {cs : List (Clause F)} (h : Clauses w ts cs) : ts ≠ [] := by
  cases h <;> simp

/-- `AND` joins the clauses of two texts. -/
theorem Clauses.append {ts us : List (Token F)} {cs ds : List (Clause F)} {conj : Token F} (ht : Clauses w ts cs)
    (ha : keyword "AND" conj = true) (hu : Clauses w us ds) : Clauses w (ts ++ conj :: us) (cs ++ ds) := by
  induction ht with
  | last hc => exact .more (parseClause_stable _ hc) ha hu
  | more hc ha' _ ih => exact .more (parseClause_stable _ hc) ha' ih

/-- An accepted text that is not grouped is the fold of its clauses. -/
theorem clauses_of_parseFrom {n : Nat} {q v : VisibilityQuery F} {tok : Token F} {toks : List (Token F)}
    (h : parseFrom w n q (tok :: toks) = .ok v) (hv : v.groupBy = none) :
    ∃ cs, Clauses w (tok :: toks) cs ∧ cs.foldlM (applyClause w) q = .ok v := by
  induction n generalizing q tok toks with
  | zero => cases h
  | succ n ih =>
    rw [parseFrom] at h
    split at h
    · exact absurd hv (groupBy_of_parseGroupBy h)
    · obtain ⟨⟨c, rest⟩, hc, h⟩ := bind_eq_ok.1 h
      obtain ⟨q', hq, h⟩ := bind_eq_ok.1 h
      cases rest with
      | nil =>
        cases h
        refine ⟨[c], .last hc, ?_⟩
        rw [List.foldlM_cons, hq]
        rfl
      | cons conj us =>
        dsimp only at h
        split at h
        · next ha =>
          cases us with
          | nil => cases h
          | cons tok' us =>
            obtain ⟨cs, hcs, hf⟩ := ih h
            refine ⟨c :: cs, .more hc ha hcs, ?_⟩
            rw [List.foldlM_cons, hq]
            exact hf
        · split at h
          · next hg =>
            -- `GROUP` ends the query, and groups it.
            cases n with
            | zero => cases h
            | succ n =>
              rw [parseFrom, if_pos hg] at h
              exact absurd hv (groupBy_of_parseGroupBy h)
          · split at h <;> cases h

theorem keyword_group {tok : Token F} {toks : List (Token F)} {p : Clause F × List (Token F)}
    (hc : parseClause w (tok :: toks) = .ok p) : ¬ keyword "GROUP" tok = true :=
  fun hk => parseClause_keyword hk (by simp) toks hc

/-- Clauses that are accepted are folded. -/
theorem Clauses.foldlM {ts : List (Token F)} {cs : List (Clause F)} (ht : Clauses w ts cs) {n : Nat}
    {q v : VisibilityQuery F} (h : parseFrom w n q ts = .ok v) : cs.foldlM (applyClause w) q = .ok v := by
  induction ht generalizing n q with
  | last hc =>
    cases n with
    | zero => cases h
    | succ n =>
      rw [parseFrom, if_neg (keyword_group hc), hc, ok_bind] at h
      obtain ⟨q', hq, h⟩ := bind_eq_ok.1 h
      cases h
      rw [List.foldlM_cons, hq]
      rfl
  | more hc ha ht ih =>
    cases n with
    | zero => cases h
    | succ n =>
      rw [parseFrom, if_neg (keyword_group hc), hc, ok_bind] at h
      obtain ⟨q', hq, h⟩ := bind_eq_ok.1 h
      simp only [ha, if_true, List.isEmpty_iff, ht.ne_nil, if_false] at h
      rw [List.foldlM_cons, hq]
      exact ih h

/-- Nothing may follow the clauses but an `AND` with a clause after it. -/
theorem Clauses.trailing {ts : List (Token F)} {cs : List (Clause F)} (ht : Clauses w ts cs) {conj : Token F}
    (ha : keyword "AND" conj = true) {n : Nat} {q v : VisibilityQuery F} :
    parseFrom w n q (ts ++ [conj]) ≠ .ok v := by
  induction ht generalizing n q with
  | last hc =>
    intro h
    cases n with
    | zero => cases h
    | succ n =>
      rw [List.cons_append, parseFrom, if_neg (keyword_group hc), ← List.cons_append, parseClause_stable _ hc,
        ok_bind] at h
      obtain ⟨q', -, h⟩ := bind_eq_ok.1 h
      simp only [List.nil_append, ha, if_true, List.isEmpty_nil] at h
      cases h
  | more hc ha' ht ih =>
    intro h
    cases n with
    | zero => cases h
    | succ n =>
      rw [List.cons_append, parseFrom, if_neg (keyword_group hc), ← List.cons_append, parseClause_stable _ hc,
        ok_bind] at h
      obtain ⟨q', -, h⟩ := bind_eq_ok.1 h
      simp only [List.cons_append, ha', if_true, List.isEmpty_iff, List.append_eq_nil_iff, ht.ne_nil, false_and,
        if_false] at h
      exact ih h

/-- The token of `AND`. -/
theorem tokens_and : Tokens w "AND".toList [.ident "AND"] := by
  have hn : nextToken w "AND".toList = .ok (.ident "AND", []) := by
    have hs : "AND".toList = ['A', 'N', 'D'] := by decide
    rw [hs]
    rfl
  exact .token (by decide) hn .nil

/-- **The joined query** folds the clauses of the second onto the filter of the
first. -/
theorem parseQuery_join {q₁ q₂ : String} {v₁ v₂ v : VisibilityQuery F} (h₁ : parseQuery w q₁ = .ok v₁)
    (h₂ : parseQuery w q₂ = .ok v₂) (hg₁ : v₁.groupBy = none) (hg₂ : v₂.groupBy = none)
    (h : parseQuery w (q₁ ++ " AND " ++ q₂) = .ok v) :
    ∃ cs ds : List (Clause F), cs.foldlM (applyClause w) {} = .ok v₁ ∧ ds.foldlM (applyClause w) {} = .ok v₂ ∧
      ds.foldlM (applyClause w) v₁ = .ok v := by
  obtain ⟨n₁, ts, ht, hp₁⟩ := parseQuery_tokens h₁
  obtain ⟨n₂, us, hu, hp₂⟩ := parseQuery_tokens h₂
  obtain ⟨n, js, hj, hp⟩ := parseQuery_tokens h
  have htoks : Tokens w (q₁ ++ " AND " ++ q₂).toList (ts ++ .ident "AND" :: us) := by
    have htext : (q₁ ++ " AND " ++ q₂).toList = q₁.toList ++ ' ' :: ("AND".toList ++ ' ' :: q₂.toList) := by
      rw [String.toList_append, String.toList_append]
      simp
    rw [htext]
    exact ht.append (tokens_and.append hu)
  rw [hj.unique htoks] at hp
  have hupper : asciiUpper "AND" = "AND" := by decide
  have hand : keyword (F := F) "AND" (.ident "AND") = true := by simp [keyword, hupper]
  cases ts with
  | nil =>
    cases n with
    | zero => cases hp
    | succ n =>
      rw [List.nil_append, parseFrom, if_neg (by simp [keyword, hupper])] at hp
      obtain ⟨_, hc, -⟩ := bind_eq_ok.1 hp
      exact absurd hc (parseClause_keyword hand (by simp) us)
  | cons t ts =>
    obtain ⟨cs, hcs, hf₁⟩ := clauses_of_parseFrom hp₁ hg₁
    cases us with
    | nil => exact absurd hp (hcs.trailing hand)
    | cons u us =>
      obtain ⟨ds, hds, hf₂⟩ := clauses_of_parseFrom hp₂ hg₂
      have hf := (hcs.append hand hds).foldlM hp
      rw [List.foldlM_append, hf₁, ok_bind] at hf
      exact ⟨cs, ds, hf₁, hf₂, hf⟩

/-! ## The joined filter -/

/-- Two conditions on one value, each a list of what it may be. -/
def both {α : Type} [DecidableEq α] : Option (List α) → Option (List α) → Option (List α)
  | cur, none => cur
  | cur, some xs => some (intersect cur xs)

theorem both_intersect {α : Type} [DecidableEq α] (x y : Option (List α)) (xs : List α) :
    some (intersect (both x y) xs) = both x (some (intersect y xs)) := by
  cases y with
  | none => rfl
  | some l =>
    cases x with
    | none => rfl
    | some m =>
      simp only [both, intersect, List.filter_filter, List.mem_filter, decide_eq_true_eq]
      refine congrArg some (List.filter_congr fun t _ => ?_)
      rw [Bool.eq_iff_iff, Bool.and_eq_true, decide_eq_true_eq, decide_eq_true_eq, decide_eq_true_eq]
      exact And.comm

/-- What datetimes of one kind are compared by. -/
def PyDatetime.key (d : PyDatetime) : Int := d.wall - d.utcoffset.getD 0

def later (c d : PyDatetime) : PyDatetime := if c.key < d.key then d else c

def earlier (c d : PyDatetime) : PyDatetime := if d.key < c.key then d else c

theorem later_assoc (b c d : PyDatetime) : later (later b c) d = later b (later c d) := by
  simp only [later]
  grind

theorem earlier_assoc (b c d : PyDatetime) : earlier (earlier b c) d = earlier b (earlier c d) := by
  simp only [earlier]
  grind

/-- Two bounds on one time. -/
def bound (pick : PyDatetime → PyDatetime → PyDatetime) : Option PyDatetime → Option PyDatetime → Option PyDatetime
  | cur, none => cur
  | none, some d => some d
  | some c, some d => some (pick c d)

theorem bound_assoc {pick : PyDatetime → PyDatetime → PyDatetime} (hp : ∀ b c d, pick (pick b c) d = pick b (pick c d))
    (x y : Option PyDatetime) (d : PyDatetime) :
    bound pick (bound pick x y) (some d) = bound pick x (bound pick y (some d)) := by
  cases x <;> cases y <;> simp [bound, hp]

theorem before_ok {c d : PyDatetime} {b : Bool} (h : c.before d = .ok b) : b = decide (c.key < d.key) := by
  simp only [PyDatetime.before] at h
  split at h
  · next hc hd => cases h; simp [PyDatetime.key, hc, hd]
  · next x y hc hd => cases h; simp [PyDatetime.key, hc, hd]
  · cases h

theorem tightenLo_ok {cur r : Option PyDatetime} {d : PyDatetime} (h : tightenLo cur d = .ok r) :
    r = bound later cur (some d) := by
  cases cur with
  | none => cases h; rfl
  | some c =>
    obtain ⟨b, hb, rfl⟩ := except_map_eq_ok.1 h
    rw [before_ok hb]
    simp [bound, later]

theorem tightenHi_ok {cur r : Option PyDatetime} {d : PyDatetime} (h : tightenHi cur d = .ok r) :
    r = bound earlier cur (some d) := by
  cases cur with
  | none => cases h; rfl
  | some c =>
    obtain ⟨b, hb, rfl⟩ := except_map_eq_ok.1 h
    rw [before_ok hb]
    simp [bound, earlier]

/-- `b` is the filter of `v`'s clauses and then `a`'s. Lists are intersected,
exclusions collected, bounds tightened; of two prefixes, two chains or two
values of one attribute the second is kept. -/
structure Joined (v a b : VisibilityQuery F) : Prop where
  typeIn : b.typeIn = both v.typeIn a.typeIn
  typeNotIn : b.typeNotIn = v.typeNotIn ++ a.typeNotIn
  workflowIds : b.workflowIds = both v.workflowIds a.workflowIds
  workflowIdPrefix : b.workflowIdPrefix = a.workflowIdPrefix.or v.workflowIdPrefix
  workflowIdChain : b.workflowIdChain = a.workflowIdChain.or v.workflowIdChain
  statuses : b.statuses = both v.statuses a.statuses
  startTimeLo : b.startTimeLo = bound later v.startTimeLo a.startTimeLo
  startTimeHi : b.startTimeHi = bound earlier v.startTimeHi a.startTimeHi
  closeTimeLo : b.closeTimeLo = bound later v.closeTimeLo a.closeTimeLo
  closeTimeHi : b.closeTimeHi = bound earlier v.closeTimeHi a.closeTimeHi
  searchAttributes : ∀ k, b.searchAttributes.get? k = (a.searchAttributes.get? k).or (v.searchAttributes.get? k)

theorem Joined.empty (v : VisibilityQuery F) : Joined v {} v := by
  constructor <;> simp [both, bound]

/-- Bounds stay joined when one clause tightens both. -/
theorem tighten_joined {field : String} {op : QueryOp} {d : PyDatetime} {vLo vHi aLo aHi : Option PyDatetime}
    {p r : Option PyDatetime × Option PyDatetime} (ha : tighten field op d (aLo, aHi) = .ok p)
    (hb : tighten field op d (bound later vLo aLo, bound earlier vHi aHi) = .ok r) :
    r.1 = bound later vLo p.1 ∧ r.2 = bound earlier vHi p.2 := by
  have hlo {x y : Option PyDatetime} (hx : tightenLo aLo d = .ok x) (hy : tightenLo (bound later vLo aLo) d = .ok y) :
      y = bound later vLo x := by
    rw [tightenLo_ok hx, tightenLo_ok hy, bound_assoc later_assoc]
  have hhi {x y : Option PyDatetime} (hx : tightenHi aHi d = .ok x) (hy : tightenHi (bound earlier vHi aHi) d = .ok y) :
      y = bound earlier vHi x := by
    rw [tightenHi_ok hx, tightenHi_ok hy, bound_assoc earlier_assoc]
  cases op with
  | gt | ge =>
    obtain ⟨x, hx, rfl⟩ := except_map_eq_ok.1 ha
    obtain ⟨y, hy, rfl⟩ := except_map_eq_ok.1 hb
    exact ⟨hlo hx hy, rfl⟩
  | lt | le =>
    obtain ⟨x, hx, rfl⟩ := except_map_eq_ok.1 ha
    obtain ⟨y, hy, rfl⟩ := except_map_eq_ok.1 hb
    exact ⟨rfl, hhi hx hy⟩
  | eq =>
    obtain ⟨x, hx, ha⟩ := bind_eq_ok.1 ha
    obtain ⟨x', hx', ha⟩ := bind_eq_ok.1 ha
    obtain ⟨y, hy, hb⟩ := bind_eq_ok.1 hb
    obtain ⟨y', hy', hb⟩ := bind_eq_ok.1 hb
    cases ha
    cases hb
    exact ⟨hlo hx hy, hhi hx' hy'⟩
  | _ => cases ha

/-- A clause keeps a filter the joined one. -/
theorem Joined.step {v a b a' b' : VisibilityQuery F} {c : Clause F} (hj : Joined v a b)
    (ha : applyClause w a c = .ok a') (hb : applyClause w b c = .ok b') : Joined v a' b' := by
  simp only [applyClause] at ha hb
  cases hf : systemField c.field with
  | none =>
    simp only [hf] at ha hb
    split at ha
    · cases ha
    · next ho =>
      rw [if_neg ho] at hb
      cases hv : c.value with
      | list xs => simp only [hv] at ha; cases ha
      | scalar x =>
        simp only [hv] at ha hb
        cases ha
        cases hb
        refine { hj with searchAttributes := fun k => ?_ }
        dsimp only
        rw [Py.Dict.get?_set, Py.Dict.get?_set]
        split
        · rfl
        · exact hj.searchAttributes k
  | some f =>
    cases f with
    | workflowType =>
      simp only [hf] at ha hb
      cases ho : c.op with
      | eq | isIn =>
        simp only [ho] at ha hb
        cases ha
        cases hb
        exact { hj with typeIn := by rw [hj.typeIn]; exact both_intersect _ _ _ }
      | ne =>
        simp only [ho] at ha hb
        cases ha
        cases hb
        exact { hj with typeNotIn := by dsimp only; rw [hj.typeNotIn, List.append_assoc] }
      | _ => simp only [ho] at ha; cases ha
    | workflowId =>
      simp only [hf] at ha hb
      cases hv : c.value with
      | list xs => simp only [hv] at ha; cases ha
      | scalar x =>
        simp only [hv] at ha hb
        cases ho : c.op with
        | eq =>
          simp only [ho] at ha hb
          cases ha
          cases hb
          exact { hj with workflowIdChain := rfl }
        | startsWith =>
          simp only [ho] at ha hb
          cases ha
          cases hb
          exact { hj with workflowIdPrefix := rfl }
        | _ => simp only [ho] at ha; cases ha
    | executionStatus =>
      simp only [hf] at ha hb
      cases ho : c.op with
      | eq | isIn =>
        simp only [ho] at ha hb
        obtain ⟨l, hl, ha⟩ := bind_eq_ok.1 ha
        obtain ⟨l', hl', hb⟩ := bind_eq_ok.1 hb
        rw [hl] at hl'
        cases hl'
        cases ha
        cases hb
        exact { hj with statuses := by rw [hj.statuses]; exact both_intersect _ _ _ }
      | _ => simp only [ho] at ha; cases ha
    | startTime =>
      simp only [hf] at ha hb
      cases hv : c.value with
      | list xs => simp only [hv] at ha; cases ha
      | scalar x =>
        simp only [hv] at ha hb
        obtain ⟨d, hd, ha⟩ := bind_eq_ok.1 ha
        obtain ⟨d', hd', hb⟩ := bind_eq_ok.1 hb
        rw [hd] at hd'
        cases hd'
        obtain ⟨p, hp, ha⟩ := bind_eq_ok.1 ha
        obtain ⟨r, hr, hb⟩ := bind_eq_ok.1 hb
        cases ha
        cases hb
        rw [hj.startTimeLo, hj.startTimeHi] at hr
        obtain ⟨hlo, hhi⟩ := tighten_joined hp hr
        exact { hj with startTimeLo := hlo, startTimeHi := hhi }
    | closeTime =>
      simp only [hf] at ha hb
      cases hv : c.value with
      | list xs => simp only [hv] at ha; cases ha
      | scalar x =>
        simp only [hv] at ha hb
        obtain ⟨d, hd, ha⟩ := bind_eq_ok.1 ha
        obtain ⟨d', hd', hb⟩ := bind_eq_ok.1 hb
        rw [hd] at hd'
        cases hd'
        obtain ⟨p, hp, ha⟩ := bind_eq_ok.1 ha
        obtain ⟨r, hr, hb⟩ := bind_eq_ok.1 hb
        cases ha
        cases hb
        rw [hj.closeTimeLo, hj.closeTimeHi] at hr
        obtain ⟨hlo, hhi⟩ := tighten_joined hp hr
        exact { hj with closeTimeLo := hlo, closeTimeHi := hhi }

/-- And so do many. -/
theorem Joined.fold {ds : List (Clause F)} {v a b a' b' : VisibilityQuery F} (hj : Joined v a b)
    (ha : ds.foldlM (applyClause w) a = .ok a') (hb : ds.foldlM (applyClause w) b = .ok b') : Joined v a' b' := by
  induction ds generalizing a b with
  | nil => cases ha; cases hb; exact hj
  | cons c ds ih =>
    rw [List.foldlM_cons] at ha hb
    obtain ⟨a₁, ha₁, ha⟩ := bind_eq_ok.1 ha
    obtain ⟨b₁, hb₁, hb⟩ := bind_eq_ok.1 hb
    exact ih (hj.step ha₁ hb₁) ha hb

/-- **The filter of two queries joined**, from the filters of each. -/
theorem joined_of_parseQuery {q₁ q₂ : String} {v₁ v₂ v : VisibilityQuery F} (h₁ : parseQuery w q₁ = .ok v₁)
    (h₂ : parseQuery w q₂ = .ok v₂) (hg₁ : v₁.groupBy = none) (hg₂ : v₂.groupBy = none)
    (h : parseQuery w (q₁ ++ " AND " ++ q₂) = .ok v) : Joined v₁ v₂ v := by
  obtain ⟨cs, ds, -, hf₂, hf⟩ := parseQuery_join h₁ h₂ hg₁ hg₂ h
  exact (Joined.empty v₁).fold hf₂ hf

end Dbosify
