/-
The documented language of queries, and what of it the parser accepts.

`Language` is the grammar of the module's docstring, over tokens. The parser
accepts it (`read_of_language`), and the empty text and a lone `GROUP BY` as
well; what else it accepts or refuses is named by `Regular`: an empty list or a
comma before its end, `true` and `false` in a list, an `AND` before `GROUP`,
and bounds of two kinds.
-/
import Dbosify.QueryErrors
import Mathlib.Data.List.Chain

namespace Dbosify

variable {F : Type} {w : QueryWorld F}

/-! ## The grammar -/

/-- A word that is no keyword. -/
def IsField (name : String) : Prop := asciiUpper name ∉ ["AND", "OR", "ORDER", "GROUP", "IN", "STARTS_WITH"]

inductive Operator : Token F → QueryOp → Prop
  | op (o : QueryOp) : Operator (.op o) o
  | isIn {tok : Token F} (h : keyword "IN" tok = true) : Operator tok .isIn
  | startsWith {tok : Token F} (h : keyword "STARTS_WITH" tok = true) : Operator tok .startsWith

/-- A quoted string, a number, `true` or `false`. -/
inductive Literal : Token F → Scalar F → Prop
  | str (s : String) : Literal (.str s) (.str s)
  | num (x : Scalar F) : Literal (.num x) x
  | true {name : String} (h : asciiLower name = "true") : Literal (.ident name) (.bool Bool.true)
  | false {name : String} (h : asciiLower name = "false") : Literal (.ident name) (.bool Bool.false)

/-- A literal or a bare word. -/
inductive SingleValue : Token F → Scalar F → Prop
  | literal {tok : Token F} {x : Scalar F} (h : Literal tok x) : SingleValue tok x
  | word {name : String} (ht : asciiLower name ≠ "true") (hf : asciiLower name ≠ "false") :
    SingleValue (.ident name) (.str name)

/-- One or more literals with a comma between each two, and the parenthesis
that closes the list. -/
inductive Items : List (Token F) → List (Scalar F) → Prop
  | last {tok : Token F} {x : Scalar F} (h : Literal tok x) : Items [tok, .rparen] [x]
  | more {tok : Token F} {x : Scalar F} {ts : List (Token F)} {xs : List (Scalar F)} (h : Literal tok x)
    (hs : Items ts xs) : Items (tok :: .comma :: ts) (x :: xs)

/-- A field, an operator and a value; the value is a list just after `IN`. -/
inductive ClauseText : List (Token F) → Clause F → Prop
  | single {field : String} {tok v : Token F} {op : QueryOp} {x : Scalar F} (hf : IsField field)
    (ho : Operator tok op) (hne : op ≠ .isIn) (hv : SingleValue v x) :
    ClauseText [.ident field, tok, v] { field, op, value := .scalar x }
  | list {field : String} {tok : Token F} {ts : List (Token F)} {xs : List (Scalar F)} (hf : IsField field)
    (ho : Operator tok .isIn) (hs : Items ts xs) :
    ClauseText (.ident field :: tok :: .lparen :: ts) { field, op := .isIn, value := .list xs }

inductive GroupBy : List (Token F) → SystemField → Prop
  | mk {g b : Token F} {name : String} {f : SystemField} (hg : keyword "GROUP" g = true) (hb : keyword "BY" b = true)
    (hn : systemField name = some f) (hf : f = .executionStatus ∨ f = .workflowType) : GroupBy [g, b, .ident name] f

/-- Clauses joined by `AND`, and then a `GROUP BY` or nothing. -/
inductive Language : List (Token F) → List (Clause F) → Prop
  | clause {ts : List (Token F)} {c : Clause F} (h : ClauseText ts c) : Language ts [c]
  | and {ts us : List (Token F)} {conj : Token F} {c : Clause F} {cs : List (Clause F)} (h : ClauseText ts c)
    (ha : keyword "AND" conj = true) (hs : Language us cs) : Language (ts ++ conj :: us) (c :: cs)
  | grouped {ts us : List (Token F)} {c : Clause F} {f : SystemField} (h : ClauseText ts c) (hg : GroupBy us f) :
    Language (ts ++ us) [c]

/-- A query of the documented language: each clause has an operator and a value
its field is documented with. -/
def DocumentedQuery (w : QueryWorld F) (toks : List (Token F)) : Prop :=
  ∃ cs, Language toks cs ∧ ∀ c ∈ cs, c.documented w = true

/-! ## What is left out -/

/-- What an item of a list follows. -/
def Token.opens : Token F → Bool
  | .lparen | .comma => true
  | _ => false

/-- `true` or `false`. -/
def Token.isBool : Token F → Bool
  | .ident name => asciiLower name ∈ ["true", "false"]
  | _ => false

/-- No list is empty or ends in a comma, and no item of one is `true` or
`false`. -/
def PlainLists (toks : List (Token F)) : Prop :=
  toks.IsChain fun t u => t.opens = true → u ≠ .rparen ∧ u.isBool = false

/-- No clause is followed by an `AND` that `GROUP` follows. -/
def AndsJoin (toks : List (Token F)) : Prop :=
  ∀ front conj g rest cs, toks = front ++ conj :: g :: rest → Language front cs → keyword "AND" conj = true →
    ¬ keyword "GROUP" g = true

/-- Nothing stands in the tokens where parser and documentation part. -/
structure Regular (w : QueryWorld F) (toks : List (Token F)) : Prop where
  lists : PlainLists toks
  ands : AndsJoin toks
  bounds : ∀ cs, Language toks cs → ¬ Mixes w cs

/-! ## What is accepted is in the language -/

theorem literal_of_token {tok : Token F} {x : Scalar F} (h : tok.literal = some x) : Literal tok x := by
  cases tok with
  | str s => cases h; exact .str s
  | num => cases h; exact .num x
  | _ => cases h

theorem singleValue_identLiteral (name : String) : SingleValue (F := F) (.ident name) (identLiteral name) := by
  unfold identLiteral
  split
  · next h => exact .literal (.true h)
  · next h =>
    split
    · next h' => exact .literal (.false h')
    · next h' => exact .word h h'

theorem items_of_parseItems {ts : List (Token F)} {xs : List (Scalar F)} (h : parseItems w ts = .ok (xs, []))
    {tok : Token F} (ho : tok.opens = true) (hl : PlainLists (tok :: ts)) : Items ts xs := by
  suffices key : ∀ rest, parseItems w ts = .ok (xs, rest) → rest = [] → Items ts xs from key [] h rfl
  intro rest h hr
  fun_induction parseItems w ts generalizing tok xs rest with
  | case1 => cases h
  | case2 => exact absurd rfl ((List.isChain_cons_cons.1 hl).1 ho).1
  | case3 => cases h
  | case4 item hne x hx ts ih =>
    obtain ⟨⟨ys, rest'⟩, hys, he⟩ := except_map_eq_ok.1 h
    cases he
    subst hr
    have hl' := (List.isChain_cons_cons.1 hl).2
    have hcomma : (Token.comma : Token F).opens = true := rfl
    exact .more (literal_of_token hx) (ih hys hcomma (List.isChain_cons_cons.1 hl').2 _ hys rfl)
  | case5 => cases h
  | case6 item hne x hx ts =>
    cases h
    subst hr
    exact .last (literal_of_token hx)
  | case7 => cases h

theorem clauseText_of_parseClause {ts : List (Token F)} {c : Clause F} (h : parseClause w ts = .ok (c, []))
    (hl : PlainLists ts) : ClauseText ts c := by
  obtain ⟨⟨field, r⟩, hf, h⟩ := bind_eq_ok.1 h
  obtain ⟨⟨op, r'⟩, ho, h⟩ := bind_eq_ok.1 h
  obtain ⟨⟨value, r''⟩, hv, h⟩ := bind_eq_ok.1 h
  cases h
  -- The field.
  obtain ⟨hname, rfl⟩ : IsField field ∧ ts = .ident field :: r := by
    unfold parseField at hf
    split at hf
    · split at hf
      · cases hf
      · next hk => cases hf; exact ⟨hk, rfl⟩
    · cases hf
    · cases hf
  -- The operator.
  obtain ⟨tok, hop, rfl⟩ : ∃ tok, Operator tok op ∧ r = tok :: r' := by
    unfold parseOp at ho
    split at ho
    · cases ho
    · cases ho; exact ⟨_, .op _, rfl⟩
    · split at ho
      · next hk => cases ho; exact ⟨_, .isIn hk, rfl⟩
      · split at ho
        · next hk => cases ho; exact ⟨_, .startsWith hk, rfl⟩
        · cases ho
  -- The value.
  cases r' with
  | nil => cases hv
  | cons v vs =>
    simp only [parseValue] at hv
    by_cases hin : op = .isIn
    · subst hin
      rw [if_pos rfl] at hv
      cases v with
      | lparen =>
        obtain ⟨⟨xs, rest⟩, hxs, he⟩ := except_map_eq_ok.1 hv
        cases he
        have hl' := (List.isChain_cons_cons.1 (List.isChain_cons_cons.1 hl).2).2
        exact .list hname hop (items_of_parseItems hxs rfl hl')
      | _ => cases hv
    · rw [if_neg hin] at hv
      cases v with
      | str s => cases hv; exact .single hname hop hin (.literal (.str s))
      | num x => cases hv; exact .single hname hop hin (.literal (.num x))
      | ident name => cases hv; exact .single hname hop hin (singleValue_identLiteral name)
      | _ => cases hv

theorem groupBy_of_groupEnding {g : Token F} (hg : keyword "GROUP" g = true) {ts : List (Token F)}
    (h : ∀ e, groupEnding ts ≠ .broken e) : ∃ f, GroupBy (g :: ts) f := by
  simp only [groupEnding] at h
  cases hp : parseGroupBy ({} : VisibilityQuery F) ts with
  | error e => rw [hp] at h; exact absurd rfl (h e)
  | ok q =>
    unfold parseGroupBy at hp
    split at hp
    · next tok rest =>
      split at hp
      · cases hp
      · next hb =>
        rw [not_not] at hb
        split at hp
        · next name rest =>
          split at hp
          · next hs =>
            split at hp
            · next he =>
              rw [List.isEmpty_iff.1 he]
              exact ⟨_, .mk hg hb hs (.inl rfl)⟩
            · cases hp
          · next hs =>
            split at hp
            · next he =>
              rw [List.isEmpty_iff.1 he]
              exact ⟨_, .mk hg hb hs (.inr rfl)⟩
            · cases hp
          · cases hp
        · cases hp
    · cases hp

theorem ClauseText.head {ts : List (Token F)} {c : Clause F} (h : ClauseText ts c) :
    ∃ field us, ts = .ident field :: us ∧ IsField field := by
  cases h with
  | single hf _ _ _ => exact ⟨_, _, rfl, hf⟩
  | list hf _ _ => exact ⟨_, _, rfl, hf⟩

theorem Language.head {ts : List (Token F)} {cs : List (Clause F)} (h : Language ts cs) :
    ∃ field us, ts = .ident field :: us ∧ IsField field := by
  cases h with
  | clause h => exact h.head
  | and h _ _ | grouped h _ =>
    obtain ⟨field, us, rfl, hf⟩ := h.head
    exact ⟨field, _, rfl, hf⟩

/-- A text of the language starts with no `GROUP`. -/
theorem Language.not_group {tok : Token F} {ts : List (Token F)} {cs : List (Clause F)} (h : Language (tok :: ts) cs) :
    ¬ keyword "GROUP" tok = true := by
  obtain ⟨field, us, he, hf⟩ := h.head
  cases he
  intro hk
  have hk : asciiUpper field = "GROUP" := of_decide_eq_true hk
  exact hf (by rw [hk]; simp)

theorem AndsJoin.rest {ts us : List (Token F)} {c : Clause F} {conj : Token F} (h : AndsJoin (ts ++ conj :: us))
    (hc : ClauseText ts c) (ha : keyword "AND" conj = true) : AndsJoin us := by
  rintro front conj' g rest cs rfl hf ha'
  exact h (ts ++ conj :: front) conj' g rest (c :: cs) (by simp) (.and hc ha hf) ha'

theorem AndsJoin.nil : AndsJoin ([] : List (Token F)) := by
  intro front conj g rest cs h
  simp at h

/-- What is read to its end is empty, a lone `GROUP BY`, or of the language. -/
theorem language_of_read {toks : List (Token F)} (hl : PlainLists toks) (ha : AndsJoin toks)
    (he : ∀ e, (read w toks).ending ≠ .broken e) :
    toks = [] ∨ (∃ f, GroupBy toks f) ∨ Language toks (read w toks).clauses := by
  induction hn : toks.length using Nat.strong_induction_on generalizing toks with
  | h n ih =>
  cases hc : parseClause w toks with
  | error e =>
    cases toks with
    | nil => exact .inl rfl
    | cons tok toks =>
      by_cases hg : keyword "GROUP" tok = true
      · rw [read_group hg] at he
        exact .inr (.inl (groupBy_of_groupEnding hg he))
      · rw [read_error hg hc] at he
        exact absurd rfl (he e)
  | ok p =>
    obtain ⟨c, rest⟩ := p
    obtain ⟨used, hne, rfl, hp⟩ := parseClause_local hc
    have hpos := List.length_pos_iff.2 hne
    have htext := clauseText_of_parseClause hp hl.left_of_append
    rw [read_clause hc] at he ⊢
    cases rest with
    | nil =>
      rw [List.append_nil]
      exact .inr (.inr (.clause htext))
    | cons conj us =>
      rw [List.length_append, List.length_cons] at hn
      have hlr := hl.right_of_append
      rw [readAfter] at he ⊢
      split at he
      · next hand =>
        rw [if_pos hand]
        split at he
        · exact absurd rfl (he _)
        · next hus =>
          rw [if_neg hus]
          have hlus : PlainLists us := hlr.tail
          rcases ih _ (by omega) hlus (ha.rest htext hand) he rfl with rfl | ⟨f, hg⟩ | hlang
          · exact absurd rfl hus
          · cases hg with
            | mk hg _ _ _ => exact absurd hg (ha _ _ _ _ _ rfl (.clause htext) hand)
          · exact .inr (.inr (.and htext hand hlang))
      · next hand =>
        rw [if_neg hand]
        split at he
        · next hgroup =>
          rw [if_pos hgroup]
          rw [read_group hgroup] at he ⊢
          obtain ⟨f, hg⟩ := groupBy_of_groupEnding hgroup he
          exact .inr (.inr (.grouped htext hg))
        · split at he <;> exact absurd rfl (he _)

/-! ## What is in the language is accepted -/

theorem parseItems_of_items {ts : List (Token F)} {xs : List (Scalar F)} (h : Items ts xs) {tok : Token F}
    (ho : tok.opens = true) (hl : PlainLists (tok :: ts)) : parseItems w ts = .ok (xs, []) := by
  have hliteral {item : Token F} {x : Scalar F} {us : List (Token F)} {tok : Token F} (h : Literal item x)
      (ho : tok.opens = true) (hl : PlainLists (tok :: item :: us)) : item.literal = some x := by
    have hb := ((List.isChain_cons_cons.1 hl).1 ho).2
    cases h with
    | str | num => rfl
    | true h | false h => simp [Token.isBool, h] at hb
  induction h generalizing tok with
  | last h => rw [parseItems_literal (hliteral h ho hl)]
  | more h hs ih =>
    rw [parseItems_literal (hliteral h ho hl)]
    have hcomma : (Token.comma : Token F).opens = true := rfl
    dsimp only
    rw [ih hcomma (List.isChain_cons_cons.1 hl).2.tail]
    rfl

theorem parseOp_of_operator {tok : Token F} {op : QueryOp} (h : Operator tok op) (field : String)
    (ts : List (Token F)) : parseOp w field (tok :: ts) = .ok (op, ts) := by
  cases h with
  | op o => rfl
  | isIn hk =>
    cases tok with
    | ident name => simp only [parseOp, if_pos hk]
    | _ => cases hk
  | startsWith hk =>
    cases tok with
    | ident name =>
      have hin : ¬ keyword (F := F) "IN" (.ident name) = true := by
        intro hk'
        have hk : asciiUpper name = "STARTS_WITH" := of_decide_eq_true hk
        have hk' : asciiUpper name = "IN" := of_decide_eq_true hk'
        rw [hk] at hk'
        exact absurd hk' (by decide)
      simp only [parseOp, if_neg hin, if_pos hk]
    | _ => cases hk

theorem parseValue_of_singleValue {tok : Token F} {x : Scalar F} (h : SingleValue tok x) {op : QueryOp}
    (ho : op ≠ .isIn) (field : String) : parseValue w field op [tok] = .ok (.scalar x, []) := by
  simp only [parseValue, if_neg ho]
  cases h with
  | literal h =>
    cases h with
    | str | num => rfl
    | true h => simp [identLiteral, h]
    | false h => simp [identLiteral, h]
  | word ht hf => simp [identLiteral, ht, hf]

theorem parseClause_of_clauseText {ts : List (Token F)} {c : Clause F} (h : ClauseText ts c) (hl : PlainLists ts) :
    parseClause w ts = .ok (c, []) := by
  have hfield {field : String} (hf : IsField field) (ts : List (Token F)) :
      parseField w (.ident field :: ts) = .ok (field, ts) := if_neg hf
  cases h with
  | single hf ho hne hv =>
    simp only [parseClause, hfield hf, parseOp_of_operator ho, parseValue_of_singleValue hv hne, ok_bind]
  | @list field tok ts xs hf ho hs =>
    have hl' := (List.isChain_cons_cons.1 (List.isChain_cons_cons.1 hl).2).2
    have hv : parseValue w field .isIn (.lparen :: ts) = .ok (.list xs, []) := by
      simp only [parseValue, if_true, parseItems_of_items hs rfl hl']
      rfl
    simp only [parseClause, hfield hf, parseOp_of_operator ho, hv, ok_bind]

theorem groupEnding_of_groupBy {g b : Token F} {name : String} {f : SystemField}
    (h : GroupBy [g, b, .ident name] f) : groupEnding [b, .ident name] = .grouped f := by
  cases h with
  | mk hg hb hn hf => rcases hf with rfl | rfl <;> simp [groupEnding, parseGroupBy, hb, hn]

/-- A text of the language is read as its clauses. -/
theorem read_of_language {ts : List (Token F)} {cs : List (Clause F)} (h : Language ts cs) (hl : PlainLists ts) :
    (read w ts).clauses = cs ∧ ∀ e, (read w ts).ending ≠ .broken e := by
  induction h with
  | clause h =>
    rw [read_clause (parseClause_of_clauseText h hl)]
    exact ⟨rfl, fun _ he => by cases he⟩
  | @and ts us conj c cs h ha hs ih =>
    have hp := parseClause_stable (conj :: us) (parseClause_of_clauseText (w := w) h hl.left_of_append)
    obtain ⟨hcs, he⟩ := ih hl.right_of_append.tail
    obtain ⟨field, us', rfl, -⟩ := hs.head
    rw [read_clause hp, List.nil_append, readAfter, if_pos ha, if_neg (by simp)]
    exact ⟨by rw [Reading.cons, hcs], he⟩
  | @grouped ts us c f h hg =>
    have hp := parseClause_stable us (parseClause_of_clauseText (w := w) h hl.left_of_append)
    cases hg with
    | @mk g b name f hk hb hn hf =>
      have hand : ¬ keyword "AND" g = true := fun ha => not_keyword_group ha hk
      rw [read_clause hp, List.nil_append, readAfter, if_neg hand, if_pos hk, read_group hk,
        groupEnding_of_groupBy (.mk hk hb hn hf)]
      exact ⟨rfl, fun _ he => by cases he⟩

/-! ## Acceptance -/

/-- A text is accepted if it is read to its end, and the fold of its clauses
refuses none. -/
theorem parseFrom_ok_iff (toks : List (Token F)) :
    (∃ v, parseFrom w toks.length {} toks = .ok v) ↔
      (∀ c ∈ (read w toks).clauses, c.documented w = true) ∧ ¬ Mixes w (read w toks).clauses ∧
        ∀ e, (read w toks).ending ≠ .broken e := by
  rw [parseFrom_eq_read, Reading.apply]
  have hf := folded (w := w) (read w toks).clauses
  generalize (read w toks).clauses.foldlM (applyClause w) {} = p at hf
  cases hf with
  | refused hd hm he => exact iff_of_false (by simp) fun h => hd h.1
  | clash hm => exact iff_of_false (by simp) fun h => h.2.1 hm
  | @added q hd hm hk =>
    rw [ok_bind]
    cases he : (read w toks).ending with
    | complete => exact iff_of_true ⟨_, rfl⟩ ⟨hd, hm, fun _ he => by cases he⟩
    | grouped f => exact iff_of_true ⟨_, rfl⟩ ⟨hd, hm, fun _ he => by cases he⟩
    | broken e => exact iff_of_false (by simp [QueryEnding.finish]) fun h => h.2.2 e rfl

def orderTokens : List (Token Unit) := [.ident "WorkflowType", .op .eq, .str "Order"]

def orderClause : Clause Unit where
  field := "WorkflowType"
  op := .eq
  value := .scalar (.str "Order")

theorem clauseText_order : ClauseText orderTokens orderClause :=
  .single (by unfold IsField; decide) (.op .eq) (by decide) (.literal (.str "Order"))

theorem regular_orderTokens : Regular isoWorld orderTokens := by
  have hlists : PlainLists orderTokens := by simp [PlainLists, orderTokens, Token.opens]
  refine ⟨hlists, ?_, ?_⟩
  · intro front conj g rest cs h _ ha
    have hmem : conj ∈ orderTokens := by rw [h]; simp
    simp only [orderTokens, List.mem_cons, List.not_mem_nil, or_false] at hmem
    rcases hmem with rfl | rfl | rfl <;> exact absurd ha (by decide)
  · -- There is one clause.
    rintro cs hlang ⟨front, c, rest, h, -, -, b, hb, -⟩
    have hone := (read_of_language (w := isoWorld) (.clause clauseText_order) hlists).1
    rw [← (read_of_language (w := isoWorld) hlang hlists).1, hone] at h
    cases front with
    | nil => cases hb
    | cons => simp at h

end Dbosify
