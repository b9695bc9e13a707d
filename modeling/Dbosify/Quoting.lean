/-
Quoting a value: a literal with its quotes doubled is one token, of the value
itself, and the text on either side of it is tokenized as it would be on its
own. So two queries that differ in what such a literal holds differ in one
token, and `read` makes the same clauses of both, but for that one literal.
-/
import Dbosify.QueryReading

namespace Dbosify

variable {F : Type} {w : QueryWorld F}

/-! ## The literal -/

/-- A text with each quote of it doubled. -/
def doubled (quote : Char) : List Char → List Char
  | [] => []
  | c :: cs => if c = quote then quote :: quote :: doubled quote cs else c :: doubled quote cs

/-- A text between quotes, its own ones doubled. -/
def quoteLiteral (quote : Char) (s : String) : String := .ofList (quote :: (doubled quote s.toList ++ [quote]))

/-- A doubled text is read back, and closed where it is closed. -/
theorem scanQuoted_doubled {quote : Char} (s : List Char) {rest : List Char} (hr : rest.head? ≠ some quote) :
    scanQuoted quote (doubled quote s ++ quote :: rest) = some (s, rest) := by
  induction s with
  | nil =>
    cases rest with
    | nil => simp [doubled, scanQuoted]
    | cons c rest =>
      have hc : c ≠ quote := fun h => hr (by rw [h]; rfl)
      simp [doubled, scanQuoted, hc]
  | cons c s ih =>
    rw [doubled]
    by_cases hc : c = quote
    · subst hc
      simp [scanQuoted, ih]
    · rw [if_neg hc, List.cons_append, scanQuoted_cons_of_ne hc, ih]
      rfl

theorem endsToken_quote {quote : Char} (hq : isQuote quote) : EndsToken quote := by
  rcases hq with rfl | rfl
  · exact ⟨by decide, by decide, by decide⟩
  · exact ⟨by decide, by decide, by decide⟩

theorem isSpaceChar_quote {quote : Char} (hq : isQuote quote) : Py.isSpaceChar quote = false := by
  rcases hq with rfl | rfl <;> decide

theorem tokenizeAll_literal {quote : Char} (hq : isQuote quote) (s : List Char) {rest : List Char}
    (hr : rest.head? ≠ some quote) :
    tokenizeAll w (quote :: (doubled quote s ++ quote :: rest)) =
      (tokenizeAll w rest).map (.str (.ofList s) :: ·) :=
  tokenizeAll_token (isSpaceChar_quote hq) ((nextToken_quote hq).2 ⟨_, scanQuoted_doubled s hr, rfl⟩)

/-- What ends tokens, if it continues no string, parts a text in two. -/
theorem Tokens.append_end {s : List Char} {ts : List (Token F)} (h : Tokens w s ts) {d : Char} (hd : EndsToken d)
    (hs : isQuote d → s.getLast? ≠ some d) (u : List Char) :
    tokenizeAll w (s ++ d :: u) = (tokenizeAll w (d :: u)).map (ts ++ ·) := by
  have hmap {p : Except Exc (List (Token F))} (t : Token F) (ts : List (Token F)) :
      (p.map (ts ++ ·)).map (t :: ·) = p.map (t :: ts ++ ·) := by cases p <;> rfl
  induction h with
  | nil =>
    rw [List.nil_append]
    cases tokenizeAll w (d :: u) <;> rfl
  | @space c cs ts hc h ih =>
    rw [List.cons_append, tokenizeAll_space hc, ih fun hq hl => ?_]
    cases cs with
    | nil => cases hl
    | cons c' cs => exact hs hq (by rw [List.getLast?_cons_cons, hl])
  | @token c cs rest t ts hc hn h ih =>
    obtain ⟨used, -, hsplit, -⟩ := nextToken_split hn
    have hnext : nextToken w (c :: cs ++ d :: u) = .ok (t, rest ++ d :: u) := by
      refine nextToken_append hd u hn h fun hq hrest hcd => ?_
      -- Only a string that ends the text could go on.
      obtain ⟨q, hscan, he⟩ := (nextToken_quote hq).1 hn
      cases he
      obtain ⟨inner, hu⟩ := scanQuoted_split hscan
      subst hcd
      refine hs hq ?_
      rw [hu, hrest, ← List.cons_append, List.getLast?_append_of_ne_nil _ (by simp)]
      rfl
    rw [List.cons_append] at hnext ⊢
    rw [tokenizeAll_token hc hnext, ih fun hq hl => ?_, hmap]
    rw [hsplit] at hs
    refine hs hq ?_
    rw [List.getLast?_append_of_ne_nil _ (by rintro rfl; cases hl), hl]

theorem tokenize_eq (query : String) : tokenize w query = tokenizeAll w query.toList := rfl

/-- The tokens around a literal. -/
theorem tokenize_quoteLiteral {quote : Char} (hq : isQuote quote) {before after : String} {ts : List (Token F)}
    (hb : tokenize w before = .ok ts) (hlast : ∀ u, ts.getLast? ≠ some (.str u))
    (ha : after.toList.head? ≠ some quote) (s : String) :
    tokenize w (before ++ quoteLiteral quote s ++ after) = (tokenize w after).map fun us => ts ++ .str s :: us := by
  have htoks : Tokens w before.toList ts := tokens_iff.2 hb
  have hend : before.toList.getLast? ≠ some quote := fun hx =>
    let ⟨u, hu⟩ := htoks.getLast_quote hx hq
    hlast u hu
  have htext : (before ++ quoteLiteral quote s ++ after).toList =
      before.toList ++ quote :: (doubled quote s.toList ++ quote :: after.toList) := by
    rw [String.toList_append, String.toList_append, quoteLiteral, String.toList_ofList]
    simp
  rw [tokenize_eq, htext, htoks.append_end (endsToken_quote hq) (fun _ => hend), tokenizeAll_literal hq _ ha,
    String.ofList_toList, tokenize_eq]
  cases tokenizeAll w after.toList <;> rfl

/-! ## Two texts that differ in one string -/

/-- Two values, and one of their literals is `s` in the first and `s'` in the
second. -/
inductive QueryValue.Differ (s s' : String) : QueryValue F → QueryValue F → Prop
  | scalar : Differ s s' (.scalar (.str s)) (.scalar (.str s'))
  | item (xs ys : List (Scalar F)) : Differ s s' (.list (xs ++ .str s :: ys)) (.list (xs ++ .str s' :: ys))

structure Clause.Differ (s s' : String) (c c' : Clause F) : Prop where
  field : c'.field = c.field
  op : c'.op = c.op
  value : c.value.Differ s s' c'.value

/-- What a parser makes of two such texts: it fails on both, or it has not come
to the string, or it has taken it. -/
inductive Alike (s s' : String) {α : Type} (D : α → α → Prop) :
    Except Exc (α × List (Token F)) → Except Exc (α × List (Token F)) → Prop
  | fail {e e' : Exc} : Alike s s' D (.error e) (.error e')
  | before (x : α) (ts us : List (Token F)) : Alike s s' D (.ok (x, ts ++ .str s :: us)) (.ok (x, ts ++ .str s' :: us))
  | taken {x x' : α} (h : D x x') (rest : List (Token F)) : Alike s s' D (.ok (x, rest)) (.ok (x', rest))

variable {s s' : String}

theorem Alike.bind {α β : Type} {D : α → α → Prop} {E : β → β → Prop}
    {p p' : Except Exc (α × List (Token F))}
    {f : α × List (Token F) → Except Exc (β × List (Token F))} (h : Alike s s' D p p')
    (hb : ∀ x ts us, Alike s s' E (f (x, ts ++ .str s :: us)) (f (x, ts ++ .str s' :: us)))
    (ht : ∀ x x' rest, D x x' → Alike s s' E (f (x, rest)) (f (x', rest))) : Alike s s' E (p >>= f) (p' >>= f) := by
  cases h with
  | fail => exact .fail
  | before x ts us => exact hb x ts us
  | taken h rest => exact ht _ _ rest h

theorem Alike.map {α β : Type} {D : α → α → Prop} {E : β → β → Prop}
    {p p' : Except Exc (α × List (Token F))}
    {f : α → β} (h : Alike s s' D p p') (hf : ∀ x x', D x x' → E (f x) (f x')) :
    Alike s s' E (p.map fun r => (f r.1, r.2)) (p'.map fun r => (f r.1, r.2)) := by
  cases h with
  | fail => exact .fail
  | before x ts us => exact .before (f x) ts us
  | taken h rest => exact .taken (hf _ _ h) rest

/-- Two lists, and one of their items is `s` in the first and `s'` in the
second. -/
def ItemDiffer (s s' : String) (xs ys : List (Scalar F)) : Prop :=
  ∃ l r, xs = l ++ .str s :: r ∧ ys = l ++ .str s' :: r

theorem ItemDiffer.cons {xs ys : List (Scalar F)} (h : ItemDiffer s s' xs ys) (x : Scalar F) :
    ItemDiffer s s' (x :: xs) (x :: ys) := by
  obtain ⟨l, r, rfl, rfl⟩ := h
  exact ⟨x :: l, r, rfl, rfl⟩

theorem parseItems_here (us : List (Token F)) :
    Alike s s' (ItemDiffer s s') (parseItems w (.str s :: us)) (parseItems w (.str s' :: us)) := by
  rw [parseItems_literal (x := .str s) rfl, parseItems_literal (x := .str s') rfl]
  cases us with
  | nil => exact .fail
  | cons tok us =>
    cases tok with
    | comma =>
      dsimp only
      cases parseItems w us with
      | error e => exact .fail
      | ok p =>
        have hd : ItemDiffer s s' (Scalar.str s :: p.1) (.str s' :: p.1) := ⟨[], p.1, rfl, rfl⟩
        exact .taken hd p.2
    | rparen =>
      have hd : ItemDiffer s s' [(Scalar.str s : Scalar F)] [.str s'] := ⟨[], [], rfl, rfl⟩
      exact .taken hd us
    | _ => exact .fail

theorem parseItems_alike : ∀ ts us : List (Token F),
    Alike s s' (ItemDiffer s s') (parseItems w (ts ++ .str s :: us)) (parseItems w (ts ++ .str s' :: us))
  | [], us => parseItems_here us
  | item :: ts, us => by
    by_cases hr : item = .rparen
    · subst hr
      exact .before [] ts us
    · cases hl : item.literal with
      | none => cases item <;> cases hl <;> first | exact absurd rfl hr | exact .fail
      | some x =>
        rw [List.cons_append, List.cons_append, parseItems_literal hl, parseItems_literal hl]
        match ts with
        | [] => exact .fail
        | tok :: ts =>
          cases tok with
          | comma => exact (parseItems_alike ts us).map fun xs ys h => h.cons x
          | rparen => exact .before [x] ts us
          | _ => exact .fail

theorem parseField_alike (ts us : List (Token F)) :
    Alike s s' (fun _ _ => False) (parseField w (ts ++ .str s :: us)) (parseField w (ts ++ .str s' :: us)) := by
  cases ts with
  | nil => exact .fail
  | cons tok ts =>
    cases tok with
    | ident name =>
      simp only [List.cons_append, parseField]
      split
      · exact .fail
      · exact .before name ts us
    | _ => exact .fail

theorem parseOp_alike (field : String) (ts us : List (Token F)) :
    Alike s s' (fun _ _ => False) (parseOp w field (ts ++ .str s :: us)) (parseOp w field (ts ++ .str s' :: us)) := by
  cases ts with
  | nil => exact .fail
  | cons tok ts =>
    cases tok with
    | op o => exact .before o ts us
    | ident name =>
      simp only [List.cons_append, parseOp]
      split
      · exact .before QueryOp.isIn ts us
      · split
        · exact .before QueryOp.startsWith ts us
        · exact .fail
    | _ => exact .fail

theorem parseValue_alike (field : String) (op : QueryOp) (ts us : List (Token F)) :
    Alike s s' (QueryValue.Differ s s') (parseValue w field op (ts ++ .str s :: us))
      (parseValue w field op (ts ++ .str s' :: us)) := by
  by_cases ho : op = .isIn
  · cases ts with
    | nil => simp only [List.nil_append, parseValue, if_pos ho]; exact .fail
    | cons tok ts =>
      simp only [List.cons_append, parseValue, if_pos ho]
      cases tok with
      | lparen =>
        refine (parseItems_alike ts us).map fun xs ys h => ?_
        obtain ⟨l, r, rfl, rfl⟩ := h
        exact .item l r
      | _ => exact .fail
  · cases ts with
    | nil => simp only [List.nil_append, parseValue, if_neg ho]; exact .taken .scalar us
    | cons tok ts =>
      simp only [List.cons_append, parseValue, if_neg ho]
      cases tok with
      | str s => exact .before (QueryValue.scalar (.str s)) ts us
      | num x => exact .before (QueryValue.scalar x) ts us
      | ident name => exact .before (QueryValue.scalar (identLiteral name)) ts us
      | _ => exact .fail

theorem parseClause_alike (ts us : List (Token F)) :
    Alike s s' (Clause.Differ s s') (parseClause w (ts ++ .str s :: us)) (parseClause w (ts ++ .str s' :: us)) := by
  refine (parseField_alike ts us).bind (fun field ts us => ?_) fun _ _ _ h => h.elim
  refine (parseOp_alike field ts us).bind (fun op ts us => ?_) fun _ _ _ h => h.elim
  refine (parseValue_alike field op ts us).bind (fun value ts us => .before _ ts us) fun value value' rest h => ?_
  exact .taken { field := rfl, op := rfl, value := h } rest

/-! ## The clauses of both -/

/-- Readings that end alike, but for the error of one that is broken. -/
inductive QueryEnding.Alike : QueryEnding → QueryEnding → Prop
  | complete : QueryEnding.Alike .complete .complete
  | grouped (field : SystemField) : QueryEnding.Alike (.grouped field) (.grouped field)
  | broken (e e' : Exc) : QueryEnding.Alike (.broken e) (.broken e')

theorem QueryEnding.Alike.refl (ending : QueryEnding) : ending.Alike ending := by
  cases ending
  · exact .complete
  · exact .grouped _
  · exact .broken _ _

/-- The same clauses but for the literal of one, which may not have been read,
and the same ending. -/
structure Reading.Alike (s s' : String) (r r' : Reading F) : Prop where
  clauses : r'.clauses = r.clauses ∨ ∃ cs c c' ds, c.Differ s s' c' ∧ r.clauses = cs ++ c :: ds ∧
    r'.clauses = cs ++ c' :: ds
  ending : r.ending.Alike r'.ending

theorem Reading.Alike.cons {r r' : Reading F} (h : r.Alike s s' r') (c : Clause F) :
    (r.cons c).Alike s s' (r'.cons c) where
  clauses := by
    rcases h.clauses with he | ⟨cs, d, d', ds, hd, he, he'⟩
    · exact .inl (by rw [Reading.cons, Reading.cons, he])
    · exact .inr ⟨c :: cs, d, d', ds, hd, by rw [Reading.cons, he]; rfl, by rw [Reading.cons, he']; rfl⟩
  ending := h.ending

theorem Reading.Alike.head {c c' : Clause F} (h : c.Differ s s' c') (cs : List (Clause F)) (ending : QueryEnding) :
    Reading.Alike s s' ⟨c :: cs, ending⟩ ⟨c' :: cs, ending⟩ where
  clauses := .inr ⟨[], c, c', cs, h, rfl, rfl⟩
  ending := .refl _

theorem Reading.Alike.same (cs : List (Clause F)) {ending ending' : QueryEnding} (h : ending.Alike ending') :
    Reading.Alike s s' ⟨cs, ending⟩ ⟨cs, ending'⟩ where
  clauses := .inl rfl
  ending := h

/-- `GROUP BY` takes no string. -/
theorem parseGroupBy_str (q : VisibilityQuery F) (ts us : List (Token F)) :
    ∃ e, parseGroupBy q (ts ++ .str s :: us) = .error e := by
  match ts with
  | [] => exact ⟨_, rfl⟩
  | [tok] =>
    simp only [List.cons_append, List.nil_append, parseGroupBy]
    split <;> exact ⟨_, rfl⟩
  | tok :: tok' :: ts =>
    have hne : (ts ++ .str s :: us).isEmpty = false := by simp
    rw [List.cons_append, List.cons_append]
    cases tok' with
    | ident name =>
      simp only [parseGroupBy, hne, Bool.false_eq_true, if_false]
      split
      · exact ⟨_, rfl⟩
      · split <;> exact ⟨_, rfl⟩
    | _ =>
      simp only [parseGroupBy]
      split <;> exact ⟨_, rfl⟩

theorem groupEnding_str (ts us : List (Token F)) : ∃ e, groupEnding (ts ++ .str s :: us) = .broken e := by
  obtain ⟨e, he⟩ := parseGroupBy_str (s := s) ({} : VisibilityQuery F) ts us
  exact ⟨e, by rw [groupEnding, he]⟩

theorem read_alike (ts us : List (Token F)) :
    (read w (ts ++ .str s :: us)).Alike s s' (read w (ts ++ .str s' :: us)) := by
  induction hn : (ts ++ .str s :: us).length using Nat.strong_induction_on generalizing ts us with
  | h n ih =>
  have hkeep : ∀ p p', parseClause w (ts ++ .str s :: us) = p → parseClause w (ts ++ .str s' :: us) = p' →
      Alike s s' (Clause.Differ s s') p p' := fun _ _ h h' => h ▸ h' ▸ parseClause_alike ts us
  cases hp : parseClause w (ts ++ .str s :: us) with
  | error e =>
    cases hp' : parseClause w (ts ++ .str s' :: us) with
    | ok p => cases hkeep _ _ hp hp'
    | error e' =>
      cases ts with
      | nil => exact .same [] (.broken _ _)
      | cons tok ts =>
        by_cases hg : keyword "GROUP" tok = true
        · obtain ⟨e, he⟩ := groupEnding_str (s := s) ts us
          obtain ⟨e', he'⟩ := groupEnding_str (s := s') ts us
          rw [List.cons_append, List.cons_append, read_group hg, read_group hg, he, he']
          exact .same [] (.broken e e')
        · rw [List.cons_append] at hp hp' ⊢
          rw [List.cons_append, read_error hg hp, read_error hg hp']
          exact .same [] (.broken e e')
  | ok p =>
    obtain ⟨c, rest⟩ := p
    have hlen := parseClause_length hp
    cases hp' : parseClause w (ts ++ .str s' :: us) with
    | error e' => cases hkeep _ _ hp hp'
    | ok p' =>
      obtain ⟨c', rest'⟩ := p'
      rw [read_clause hp, read_clause hp']
      cases hkeep _ _ hp hp' with
      | before c ts us =>
        rw [hn] at hlen
        cases ts with
        | nil => exact Reading.Alike.same [c] (QueryEnding.Alike.broken _ _)
        | cons conj ts =>
          rw [List.cons_append, List.cons_append, readAfter, readAfter]
          split
          · rw [if_neg (by simp), if_neg (by simp)]
            rw [List.cons_append, List.length_cons] at hlen
            exact (ih _ (by omega) ts us rfl).cons c
          · split
            · exact (ih _ hlen (conj :: ts) us rfl).cons c
            · split <;> exact .same [c] (.refl _)
      | taken h rest =>
        cases rest with
        | nil => exact .head h [] _
        | cons conj rest =>
          simp only [readAfter]
          split
          · split
            · exact .head h [] _
            · exact .head h _ _
          · split
            · exact .head h _ _
            · split <;> exact .head h [] _

/-- **Quoting is injection-safe.** Where a value may stand (after no string),
and before the end or what is not the quote, the literal of `s` is the one
token of `s`, between the tokens of the text on either side, each tokenized on
its own; and the clauses that are read of the query, and what ends them, are
those of the query with any other value in its place, but for the one literal. -/
theorem quoteLiteral_safe {quote : Char} (hq : quote = apostrophe ∨ quote = doubleQuote) {before after : String}
    {ts : List (Token F)} (hb : tokenize w before = .ok ts) (hlast : ∀ u, ts.getLast? ≠ some (.str u))
    (ha : after.toList.head? ≠ some quote) (s : String) :
    tokenize w (before ++ quoteLiteral quote s ++ after) = (tokenize w after).map (fun us => ts ++ .str s :: us) ∧
      ∀ s' vs vs', tokenize w (before ++ quoteLiteral quote s ++ after) = .ok vs →
        tokenize w (before ++ quoteLiteral quote s' ++ after) = .ok vs' →
          (read w vs).Alike s s' (read w vs') := by
  have htoks (s : String) := tokenize_quoteLiteral hq hb hlast ha s
  refine ⟨htoks s, fun s' vs vs' hvs hvs' => ?_⟩
  rw [htoks] at hvs hvs'
  obtain ⟨us, hus, rfl⟩ := except_map_eq_ok.1 hvs
  rw [hus] at hvs'
  cases hvs'
  exact read_alike ts us

/-- A world where no text is a datetime, and floats are not told apart. -/
def plainWorld : QueryWorld Unit where
  float _ := ()
  floatStr _ := "nan"
  fromIso _ := none
  localInstant := id

/-- `O'Brien' OR WorkflowId = 'x` stays one type name. -/
theorem quoteLiteral_safe_obrien :
    tokenize plainWorld ("WorkflowType = " ++ quoteLiteral apostrophe "O'Brien' OR WorkflowId = 'x" ++ " AND a = 1") =
      .ok [.ident "WorkflowType", .op .eq, .str "O'Brien' OR WorkflowId = 'x", .ident "AND", .ident "a", .op .eq,
        .num (.int 1)] := by
  have hb : tokenize plainWorld "WorkflowType = " = .ok [.ident "WorkflowType", .op .eq] := by rfl
  have ha : tokenize plainWorld " AND a = 1" = .ok [.ident "AND", .ident "a", .op .eq, .num (.int 1)] := by rfl
  rw [(quoteLiteral_safe (.inl rfl) hb (by simp) (by decide) _).1, ha]
  rfl

end Dbosify
