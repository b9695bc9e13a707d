/-
Visibility queries: the tokens of a query string, the clauses they make, and
the filter the clauses are folded into (`_internal/visibility.py`).
-/
import Dbosify.Dict
import Dbosify.Status
import Dbosify.Strings

namespace Dbosify

/-! ## Literals -/

/-- A literal of a query; its floats are of the type `F`. -/
inductive Scalar (F : Type)
  | str (s : String)
  | int (i : Int)
  | float (x : F)
  | bool (b : Bool)
deriving DecidableEq, Repr

inductive QueryValue (F : Type)
  | scalar (x : Scalar F)
  | list (xs : List (Scalar F))
deriving DecidableEq, Repr

/-- A `datetime`: its wall clock in microseconds, and its offset from UTC,
unless it is naive. -/
structure PyDatetime where
  wall : Int
  utcoffset : Option Int
deriving DecidableEq, Repr

/-- `a < b`. -/
def PyDatetime.before (a b : PyDatetime) : Except Exc Bool :=
  match a.utcoffset, b.utcoffset with
  | none, none => .ok (a.wall < b.wall)
  | some x, some y => .ok (a.wall - x < b.wall - y)
  | _, _ => .error (.typeError "can't compare offset-naive and offset-aware datetimes")

/-- What the language and the machine supply: floats and their texts, the
datetimes ISO texts stand for, and the instants of naive ones. -/
structure QueryWorld (F : Type) where
  float : String → F
  floatStr : F → String
  /-- `datetime.fromisoformat`, or else `dateutil`'s `isoparse`. -/
  fromIso : String → Option PyDatetime
  localInstant : Int → Int

variable {F : Type}

/-- `str(value)`. -/
def Scalar.text (w : QueryWorld F) : Scalar F → String
  | .str s => s
  | .int i => toString i
  | .float x => w.floatStr x
  | .bool true => "True"
  | .bool false => "False"

def quoted (s : String) : String := "'" ++ s ++ "'"

/-- `repr(value)`. -/
def Scalar.repr (w : QueryWorld F) : Scalar F → String
  | .str s => quoted s
  | x => x.text w

/-- `_SUPPORTED`. -/
def supported : String :=
  "Supported visibility subset: WorkflowType (= != IN), WorkflowId (= STARTS_WITH), ExecutionStatus (= IN), " ++
  "StartTime/CloseTime (> >= < <= =), <SearchAttribute> (=), joined by AND, with an optional trailing " ++
  "GROUP BY ExecutionStatus|WorkflowType (count_workflows only)."

/-- `raise VisibilityQueryError(message)`. -/
def reject {α : Type} (message : String) : Except Exc α := .error (.visibilityQueryError message)

/-- The parser's `fail`. -/
def failQuery {α : Type} (message : String) : Except Exc α := reject (message ++ " " ++ supported)

/-! ## Tokens -/

inductive QueryOp | eq | ne | gt | ge | lt | le | isIn | startsWith
deriving DecidableEq, Repr

def QueryOp.text : QueryOp → String
  | eq => "="
  | ne => "!="
  | gt => ">"
  | ge => ">="
  | lt => "<"
  | le => "<="
  | isIn => "IN"
  | startsWith => "STARTS_WITH"

inductive Token (F : Type)
  | op (o : QueryOp)
  | lparen
  | rparen
  | comma
  | num (x : Scalar F)
  | ident (name : String)
  | str (s : String)
deriving DecidableEq, Repr

def Token.repr (w : QueryWorld F) : Token F → String
  | .op o => quoted o.text
  | .lparen => quoted "("
  | .rparen => quoted ")"
  | .comma => quoted ","
  | .num x => x.repr w
  | .ident name => quoted name
  | .str s => quoted s

def apostrophe : Char := Char.ofNat 39

def doubleQuote : Char := Char.ofNat 34

/-- A quoted string after its opening quote: its text, and what follows. Two
quotes are one of the text; where no quote closes the string, the last such
pair is given up, and its first quote closes it. -/
def scanQuoted (quote : Char) : List Char → Option (List Char × List Char)
  | [] => none
  | c :: cs =>
    if c = quote then
      match cs with
      | [] => some ([], [])
      | c' :: cs' =>
        if c' = quote then
          match scanQuoted quote cs' with
          | some (t, rest) => some (quote :: t, rest)
          | none => some ([], c' :: cs')
        else some ([], c' :: cs')
    else (scanQuoted quote cs).map fun p => (c :: p.1, p.2)

/-- `<=|>=|!=|=|<|>`. -/
def scanOp : List Char → Option (QueryOp × List Char)
  | '<' :: '=' :: rest => some (.le, rest)
  | '>' :: '=' :: rest => some (.ge, rest)
  | '!' :: '=' :: rest => some (.ne, rest)
  | '=' :: rest => some (.eq, rest)
  | '<' :: rest => some (.lt, rest)
  | '>' :: rest => some (.gt, rest)
  | _ => none

/-- `\d`. -/
def isDecimalChar (c : Char) : Bool := (Py.decimalValue c).isSome

def signOf : List Char → Bool × List Char
  | '-' :: rest => (true, rest)
  | s => (false, s)

/-- The digits after a point, if there are any. -/
def scanFraction : List Char → Option (List Char × List Char)
  | '.' :: rest =>
    if (rest.takeWhile isDecimalChar).isEmpty then none
    else some (rest.takeWhile isDecimalChar, rest.dropWhile isDecimalChar)
  | _ => none

/-- `-?\d+(?:\.\d+)?`: an `int`, or with a point a `float`. -/
def scanNumber (w : QueryWorld F) (s : List Char) : Option (Except Exc (Scalar F) × List Char) :=
  let (neg, unsigned) := signOf s
  let digits := unsigned.takeWhile isDecimalChar
  let rest := unsigned.dropWhile isDecimalChar
  if digits.isEmpty then none
  else
    match scanFraction rest with
    | some (fraction, rest) =>
      let text := String.ofList ((if neg then ['-'] else []) ++ digits ++ '.' :: fraction)
      some (.ok (.float (w.float text)), rest)
    | none =>
      let value := (Py.int digits).mapError .valueError
      some (value.map fun n => .int (if neg then -(n : Int) else n), rest)

def isIdentStart (c : Char) : Bool := c.isAlpha || c == '_'

def isIdentChar (c : Char) : Bool := c.isAlphanum || c == '_' || c == '.'

/-- A token of one character. -/
def punctuation : Char → Option (Token F)
  | '(' => some .lparen
  | ')' => some .rparen
  | ',' => some .comma
  | _ => none

/-- The token at the head of the query (`_TOKEN_RE`), and what follows it. -/
def nextToken (w : QueryWorld F) (s : List Char) : Except Exc (Token F × List Char) :=
  let cannotParse : Except Exc (Token F × List Char) :=
    reject ("Cannot parse visibility query near " ++ quoted (.ofList (s.take 20)) ++ ". " ++ supported)
  match s with
  | [] => cannotParse
  | c :: cs =>
    if c = apostrophe ∨ c = doubleQuote then
      match scanQuoted c cs with
      | some (t, rest) => .ok (.str (.ofList t), rest)
      | none => cannotParse
    else
      match scanOp (c :: cs) with
      | some (o, rest) => .ok (.op o, rest)
      | none =>
        match punctuation c with
        | some t => .ok (t, cs)
        | none =>
          match scanNumber w (c :: cs) with
          | some (value, rest) => value.map fun x => (.num x, rest)
          | none =>
            if isIdentStart c then
              .ok (.ident (.ofList (c :: cs.takeWhile isIdentChar)), cs.dropWhile isIdentChar)
            else cannotParse

/-- The tokens of a query that is not longer than the fuel. -/
def tokenizeFrom (w : QueryWorld F) : Nat → List Char → Except Exc (List (Token F))
  | _, [] => .ok []
  | 0, _ :: _ => .error .assertionError
  | n + 1, c :: cs =>
    if Py.isSpaceChar c then tokenizeFrom w n cs
    else do
      let (t, rest) ← nextToken w (c :: cs)
      let ts ← tokenizeFrom w n rest
      .ok (t :: ts)

/-- `_tokenize`. -/
def tokenize (w : QueryWorld F) (query : String) : Except Exc (List (Token F)) :=
  tokenizeFrom w query.toList.length query.toList

/-! ## The filter -/

inductive SystemField | workflowType | workflowId | executionStatus | startTime | closeTime
deriving DecidableEq, Repr

/-- `s.lower()`, of a string whose letters are ASCII. -/
def asciiLower (s : String) : String := .ofList (s.toList.map Char.toLower)

def asciiUpper (s : String) : String := .ofList (s.toList.map Char.toUpper)

/-- `_SYSTEM_FIELDS.get(name.lower())`. -/
def systemField (name : String) : Option SystemField :=
  let key := asciiLower name
  if key = "workflowtype" then some .workflowType
  else if key = "workflowid" then some .workflowId
  else if key = "executionstatus" then some .executionStatus
  else if key = "starttime" then some .startTime
  else if key = "closetime" then some .closeTime
  else none

/-- `_STATUS_BY_NAME`. A letter that only Unicode makes lower makes none of
these names. -/
def statusByName (key : String) : Option WorkflowExecutionStatus :=
  ([("running", .running), ("completed", .completed), ("failed", .failed), ("canceled", .canceled),
    ("cancelled", .canceled), ("terminated", .terminated), ("continuedasnew", .continuedAsNew),
    ("continued_as_new", .continuedAsNew), ("timedout", .timedOut), ("timed_out", .timedOut)].find? (·.1 = key)).map (·.2)

/-- `VisibilityQuery`. Sets are lists read by membership. -/
structure VisibilityQuery (F : Type) where
  typeIn : Option (List String) := none
  typeNotIn : List String := []
  workflowIds : Option (List String) := none
  workflowIdPrefix : Option String := none
  workflowIdChain : Option String := none
  statuses : Option (List WorkflowExecutionStatus) := none
  startTimeLo : Option PyDatetime := none
  startTimeHi : Option PyDatetime := none
  closeTimeLo : Option PyDatetime := none
  closeTimeHi : Option PyDatetime := none
  searchAttributes : Py.Dict String (Scalar F) := .empty
  groupBy : Option SystemField := none
deriving DecidableEq

structure Clause (F : Type) where
  field : String
  op : QueryOp
  value : QueryValue F

/-- `values if isinstance(value, list) else [value]`. -/
def QueryValue.items : QueryValue F → List (Scalar F)
  | .scalar x => [x]
  | .list xs => xs

/-- `_parse_datetime`. -/
def parseQueryDatetime (w : QueryWorld F) (field : String) : Scalar F → Except Exc PyDatetime
  | .str s =>
    match w.fromIso s with
    | some d => .ok d
    | none => reject (field ++ ": cannot parse " ++ quoted s ++ " as an ISO-8601 datetime")
  | x => reject (field ++ " expects a quoted ISO-8601 datetime, got " ++ x.repr w)

/-- `dt if cur is None else max(cur, dt)`. -/
def tightenLo (cur : Option PyDatetime) (dt : PyDatetime) : Except Exc (Option PyDatetime) :=
  match cur with
  | none => .ok (some dt)
  | some c => (c.before dt).map fun b => some (if b then dt else c)

/-- `dt if cur is None else min(cur, dt)`. -/
def tightenHi (cur : Option PyDatetime) (dt : PyDatetime) : Except Exc (Option PyDatetime) :=
  match cur with
  | none => .ok (some dt)
  | some c => (dt.before c).map fun b => some (if b then dt else c)

/-- The bounds of a time field after a clause. -/
def tighten (field : String) (op : QueryOp) (dt : PyDatetime) (bounds : Option PyDatetime × Option PyDatetime) :
    Except Exc (Option PyDatetime × Option PyDatetime) :=
  match op with
  | .gt | .ge => (tightenLo bounds.1 dt).map (·, bounds.2)
  | .lt | .le => (tightenHi bounds.2 dt).map (bounds.1, ·)
  | .eq => do
    let lo ← tightenLo bounds.1 dt
    let hi ← tightenHi bounds.2 dt
    .ok (lo, hi)
  | op => reject (field ++ " supports > >= < <= =, not " ++ quoted op.text ++ ". " ++ supported)

/-- The statuses a clause names. -/
def parseStatuses (w : QueryWorld F) (xs : List (Scalar F)) : Except Exc (List WorkflowExecutionStatus) :=
  xs.mapM fun x =>
    match statusByName (asciiLower (x.text w)) with
    | some s => .ok s
    | none =>
      reject ("Unknown ExecutionStatus " ++ x.repr w ++
        ". Valid: Running, Completed, Failed, Canceled, Terminated, ContinuedAsNew, TimedOut.")

/-- Two conditions on one list, joined. -/
def intersect {α : Type} [DecidableEq α] (cur : Option (List α)) (xs : List α) : List α :=
  match cur with
  | none => xs
  | some l => l.filter (· ∈ xs)

/-- `_apply_clause`. -/
def applyClause (w : QueryWorld F) (q : VisibilityQuery F) (c : Clause F) : Except Exc (VisibilityQuery F) :=
  match systemField c.field with
  | some .workflowType =>
    let names := c.value.items.map (·.text w)
    match c.op with
    | .eq | .isIn => .ok { q with typeIn := some (intersect q.typeIn names) }
    | .ne => .ok { q with typeNotIn := q.typeNotIn ++ names }
    | op => reject ("WorkflowType supports = != IN, not " ++ quoted op.text ++ ". " ++ supported)
  | some .workflowId =>
    match c.value with
    | .list _ => reject "WorkflowId does not support a value list"
    | .scalar x =>
      match c.op with
      | .eq => .ok { q with workflowIdChain := some (x.text w) }
      | .startsWith => .ok { q with workflowIdPrefix := some (x.text w) }
      | op => reject ("WorkflowId supports = and STARTS_WITH, not " ++ quoted op.text ++ ". " ++ supported)
  | some .executionStatus =>
    match c.op with
    | .eq | .isIn => do
      let parsed ← parseStatuses w c.value.items
      .ok { q with statuses := some (intersect q.statuses parsed) }
    | op => reject ("ExecutionStatus supports = and IN, not " ++ quoted op.text ++ ". " ++ supported)
  | some .startTime =>
    match c.value with
    | .list _ => reject "StartTime does not support a value list"
    | .scalar x => do
      let dt ← parseQueryDatetime w "StartTime" x
      let (lo, hi) ← tighten "StartTime" c.op dt (q.startTimeLo, q.startTimeHi)
      .ok { q with startTimeLo := lo, startTimeHi := hi }
  | some .closeTime =>
    match c.value with
    | .list _ => reject "CloseTime does not support a value list"
    | .scalar x => do
      let dt ← parseQueryDatetime w "CloseTime" x
      let (lo, hi) ← tighten "CloseTime" c.op dt (q.closeTimeLo, q.closeTimeHi)
      .ok { q with closeTimeLo := lo, closeTimeHi := hi }
  | none =>
    if c.op ≠ .eq then
      reject ("Search attribute " ++ quoted c.field ++ " supports only = (got " ++ quoted c.op.text ++ "). " ++ supported)
    else
      match c.value with
      | .list _ => reject ("Search attribute " ++ quoted c.field ++ " does not support a value list")
      | .scalar x => .ok { q with searchAttributes := q.searchAttributes.set c.field x }

/-! ## The parser -/

/-- A keyword, in whichever case it is written. -/
def keyword (name : String) : Token F → Bool
  | .ident s => asciiUpper s = name
  | _ => false

/-- A literal token's value (`_scalar`). -/
def Token.literal : Token F → Option (Scalar F)
  | .str s => some (.str s)
  | .num x => some x
  | _ => none

/-- `_ident_literal`. -/
def identLiteral (name : String) : Scalar F :=
  if asciiLower name = "true" then .bool true
  else if asciiLower name = "false" then .bool false
  else .str name

/-- The items of a list after its opening parenthesis, and what follows its
closing one. -/
def parseItems (w : QueryWorld F) : List (Token F) → Except Exc (List (Scalar F) × List (Token F))
  | [] => failQuery "Unterminated IN list (missing ')')."
  | .rparen :: rest => .ok ([], rest)
  | item :: rest =>
    match item.literal with
    | none => failQuery ("IN list takes literals, got " ++ item.repr w ++ ".")
    | some x =>
      match rest with
      | .comma :: rest => (parseItems w rest).map fun p => (x :: p.1, p.2)
      | [] => failQuery "Unterminated IN list (missing ')')."
      | .rparen :: rest => .ok ([x], rest)
      | _ => failQuery "Expected ',' or ')' in IN list."

/-- The field of a clause. -/
def parseField (w : QueryWorld F) : List (Token F) → Except Exc (String × List (Token F))
  | .ident name :: rest =>
    if asciiUpper name ∈ ["AND", "OR", "ORDER", "GROUP", "IN", "STARTS_WITH"] then
      failQuery ("Unexpected keyword " ++ quoted name ++ " where a field was expected.")
    else .ok (name, rest)
  | tok :: _ => failQuery ("Expected a field name, got " ++ tok.repr w ++ ".")
  | [] => failQuery "Expected a field name."

/-- The operator after a field. -/
def parseOp (w : QueryWorld F) (field : String) : List (Token F) → Except Exc (QueryOp × List (Token F))
  | [] => failQuery ("Expected an operator after " ++ quoted field ++ ".")
  | .op o :: rest => .ok (o, rest)
  | tok :: rest =>
    if keyword "IN" tok then .ok (.isIn, rest)
    else if keyword "STARTS_WITH" tok then .ok (.startsWith, rest)
    else failQuery ("Expected an operator after " ++ quoted field ++ ", got " ++ tok.repr w ++ ".")

/-- The value after an operator. -/
def parseValue (w : QueryWorld F) (field : String) (op : QueryOp) :
    List (Token F) → Except Exc (QueryValue F × List (Token F))
  | [] => failQuery ("Expected a value after " ++ quoted field ++ " " ++ op.text ++ ".")
  | tok :: rest =>
    if op = .isIn then
      match tok with
      | .lparen => (parseItems w rest).map fun p => (.list p.1, p.2)
      | _ => failQuery "IN requires a parenthesized list, e.g. IN ('a', 'b')."
    else
      match tok with
      | .lparen => failQuery "Parenthesized values are only valid after IN."
      | .ident name => .ok (.scalar (identLiteral name), rest)
      | .str s => .ok (.scalar (.str s), rest)
      | .num x => .ok (.scalar x, rest)
      | tok => failQuery ("Expected a value, got " ++ tok.repr w ++ ".")

/-- A clause, and what follows it. -/
def parseClause (w : QueryWorld F) (toks : List (Token F)) : Except Exc (Clause F × List (Token F)) := do
  let (field, rest) ← parseField w toks
  let (op, rest) ← parseOp w field rest
  let (value, rest) ← parseValue w field op rest
  .ok ({ field, op, value }, rest)

/-- What follows `GROUP`: `BY`, a field to group by, and nothing else. -/
def parseGroupBy (q : VisibilityQuery F) : List (Token F) → Except Exc (VisibilityQuery F)
  | tok :: rest =>
    if ¬ keyword "BY" tok then failQuery "Expected 'BY' after GROUP."
    else
      match rest with
      | .ident name :: rest =>
        match systemField name with
        | some .executionStatus =>
          if rest.isEmpty then .ok { q with groupBy := some .executionStatus }
          else failQuery "GROUP BY must be the final clause."
        | some .workflowType =>
          if rest.isEmpty then .ok { q with groupBy := some .workflowType }
          else failQuery "GROUP BY must be the final clause."
        | _ => failQuery ("GROUP BY supports only ExecutionStatus or WorkflowType, got " ++ quoted name ++ ".")
      | _ => failQuery "GROUP BY requires a field name."
  | [] => failQuery "Expected 'BY' after GROUP."

/-- The loop of `parse_query`, for no more clauses than the fuel. -/
def parseFrom (w : QueryWorld F) : Nat → VisibilityQuery F → List (Token F) → Except Exc (VisibilityQuery F)
  | _, q, [] => .ok q
  | 0, _, _ :: _ => .error .assertionError
  | n + 1, q, tok :: toks =>
    if keyword "GROUP" tok then parseGroupBy q toks
    else do
      let (clause, rest) ← parseClause w (tok :: toks)
      let q ← applyClause w q clause
      match rest with
      | [] => .ok q
      | conj :: rest =>
        if keyword "AND" conj then
          if rest.isEmpty then failQuery "Trailing AND with no clause." else parseFrom w n q rest
        else if keyword "GROUP" conj then parseFrom w n q (conj :: rest)
        else if keyword "OR" conj then failQuery "OR is not supported; only AND."
        else failQuery ("Expected AND or end of query, got " ++ conj.repr w ++ ".")

/-- `parse_query`, of a query that is not `None`. -/
def parseQuery (w : QueryWorld F) (query : String) : Except Exc (VisibilityQuery F) :=
  if (Py.strip query.toList).isEmpty then .ok {}
  else do
    let toks ← tokenize w query
    parseFrom w toks.length {} toks

end Dbosify
