/-
Listing (`WorkflowExecutionAsyncIterator`).

A listing pages through the rows DBOS returns for a query's filters and keeps
of each page the rows of users' workflows the post-filter admits. What it has
still to yield (`remaining`) is what is left of the page and what the pages not
yet fetched keep; a fetch does not change it, and each `__anext__` takes its
head. The limit counts what was yielded, the token the rows that were fetched.
-/
import Dbosify.RunIds
import Dbosify.Visibility

namespace Dbosify

variable {F : Type}

/-- `parse_query`. -/
def parseOptionalQuery (w : QueryWorld F) : Option String → Except Exc (VisibilityQuery F)
  | none => .ok {}
  | some query => parseQuery w query

/-! ## Listing -/

/-- An execution, by its run id and its type. -/
structure WorkflowExecution where
  runId : String
  workflowType : String
deriving DecidableEq, Repr

/-- `_execution_from_status`. -/
def executionFromStatus (row : WorkflowRow F) : WorkflowExecution := ⟨row.workflowId, row.typeName⟩

/-- `(r.name or "").startswith("wf:")`. -/
def WorkflowRow.isWorkflow (row : WorkflowRow F) : Bool := workflowPrefix.toList.isPrefixOf (row.name.getD "").toList

/-- `list_workflows_async`, of a store whose rows are in this order. -/
def listRows (w : QueryWorld F) (rows : List (WorkflowRow F)) (filters : DbosFilters F) (limit offset : Nat) :
    List (WorkflowRow F) :=
  ((rows.filter (filters.admits w)).drop offset).take limit

/-- `WorkflowExecutionAsyncIterator`. -/
structure WorkflowExecutionAsyncIterator (F : Type) where
  query : Option String
  pageSize : Nat
  limit : Option Nat := none
  fetchOffset : Nat := 0
  nextPageToken : Option Nat := none
  currentPage : Option (List WorkflowExecution) := none
  currentPageIndex : Nat := 0
  yielded : Nat := 0
  /-- The filters and the post-filter, once the query is parsed. -/
  parsed : Option (DbosFilters F × Option (WorkflowRow F → Bool)) := none

namespace WorkflowExecutionAsyncIterator

/-- `_ensure_parsed`. -/
def ensureParsed (w : QueryWorld F) (it : WorkflowExecutionAsyncIterator F) :
    Except Exc (DbosFilters F × Option (WorkflowRow F → Bool)) :=
  match it.parsed with
  | some p => .ok p
  | none => (parseOptionalQuery w it.query).map fun q => (q.toDbosFilters, q.postFilter)

/-- The rows a page keeps. -/
def survives (postFilter : Option (WorkflowRow F → Bool)) (row : WorkflowRow F) : Bool :=
  row.isWorkflow && !isReplayScratch row.workflowId && postFilter.all (· row)

/-- `fetch_next_page`. -/
def fetchNextPage (w : QueryWorld F) (rows : List (WorkflowRow F)) (it : WorkflowExecutionAsyncIterator F) :
    Except Exc (WorkflowExecutionAsyncIterator F) := do
  let (filters, postFilter) ← it.ensureParsed w
  let raw := listRows w rows filters it.pageSize it.fetchOffset
  .ok { it with
    parsed := some (filters, postFilter)
    fetchOffset := it.fetchOffset + raw.length
    currentPage := some ((raw.filter (survives postFilter)).map executionFromStatus)
    currentPageIndex := 0
    nextPageToken :=
      if raw.length = it.pageSize ∧ 0 < it.pageSize then some (it.fetchOffset + raw.length) else none }

/-- The loop of `__anext__`, for fewer rounds than the fuel. -/
def advance (w : QueryWorld F) (rows : List (WorkflowRow F)) :
    Nat → WorkflowExecutionAsyncIterator F → Except Exc (Option (WorkflowExecution × WorkflowExecutionAsyncIterator F))
  | 0, _ => .error .assertionError
  | n + 1, it =>
    match it.currentPage with
    | none => do advance w rows n (← it.fetchNextPage w rows)
    | some page =>
      match page[it.currentPageIndex]? with
      | some e => .ok (some (e, { it with currentPageIndex := it.currentPageIndex + 1, yielded := it.yielded + 1 }))
      | none => if it.nextPageToken.isSome then do advance w rows n (← it.fetchNextPage w rows) else .ok none

/-- `__anext__`; `none` is `StopAsyncIteration`. -/
def anext (w : QueryWorld F) (rows : List (WorkflowRow F)) (n : Nat) (it : WorkflowExecutionAsyncIterator F) :
    Except Exc (Option (WorkflowExecution × WorkflowExecutionAsyncIterator F)) :=
  if it.limit.any (· ≤ it.yielded) then .ok none else advance w rows n it

/-- What `async for` takes from the iterator. -/
def drain (w : QueryWorld F) (rows : List (WorkflowRow F)) :
    Nat → WorkflowExecutionAsyncIterator F → Except Exc (List WorkflowExecution)
  | 0, _ => .error .assertionError
  | n + 1, it => do
    match ← anext w rows (n + 1) it with
    | none => .ok []
    | some (e, it) => (drain w rows n it).map (e :: ·)

end WorkflowExecutionAsyncIterator

/-- `list_workflows` without a limit, iterated to its end. -/
def listWorkflows (w : QueryWorld F) (rows : List (WorkflowRow F)) (query : Option String) (pageSize fuel : Nat) :
    Except Exc (List WorkflowExecution) :=
  WorkflowExecutionAsyncIterator.drain w rows fuel { query, pageSize }

/-! ## What a listing yields -/

namespace WorkflowExecutionAsyncIterator

variable {w : QueryWorld F} {rows : List (WorkflowRow F)} {filters : DbosFilters F}
  {post : Option (WorkflowRow F → Bool)}

/-- The rows DBOS returns for the filters, over all pages. -/
def matching (w : QueryWorld F) (rows : List (WorkflowRow F)) (filters : DbosFilters F) : List (WorkflowRow F) :=
  rows.filter (filters.admits w)

/-- The executions of the rows that are kept. -/
def kept (post : Option (WorkflowRow F → Bool)) (rows : List (WorkflowRow F)) : List WorkflowExecution :=
  (rows.filter (survives post)).map executionFromStatus

theorem kept_append (l l' : List (WorkflowRow F)) : kept post (l ++ l') = kept post l ++ kept post l' := by
  rw [kept, List.filter_append, List.map_append, kept, kept]

theorem length_kept_le (l : List (WorkflowRow F)) : (kept post l).length ≤ l.length := by
  rw [kept, List.length_map]
  exact List.length_filter_le _ _

theorem length_matching_le : (matching w rows filters).length ≤ rows.length := List.length_filter_le _ _

/-- The executions an iterator has still to yield, were there no limit. -/
def remaining (w : QueryWorld F) (rows : List (WorkflowRow F)) (filters : DbosFilters F)
    (post : Option (WorkflowRow F → Bool)) (it : WorkflowExecutionAsyncIterator F) : List WorkflowExecution :=
  (it.currentPage.getD []).drop it.currentPageIndex ++ kept post ((matching w rows filters).drop it.fetchOffset)

/-- A bound on the pages it has still to fetch. -/
def fetches (w : QueryWorld F) (rows : List (WorkflowRow F)) (filters : DbosFilters F)
    (it : WorkflowExecutionAsyncIterator F) : Nat :=
  if it.currentPage.isNone ∨ it.nextPageToken.isSome then (matching w rows filters).length - it.fetchOffset + 1 else 0

/-- An iterator over the rows of these filters: a page without a token for the
next was the last. -/
structure Iterates (w : QueryWorld F) (rows : List (WorkflowRow F)) (filters : DbosFilters F)
    (post : Option (WorkflowRow F → Bool)) (it : WorkflowExecutionAsyncIterator F) : Prop where
  parsed : it.ensureParsed w = .ok (filters, post)
  pageSize : 0 < it.pageSize
  last : it.currentPage.isSome = true → it.nextPageToken = none → (matching w rows filters).length ≤ it.fetchOffset

variable {it : WorkflowExecutionAsyncIterator F}

theorem take_append_drop_length {α : Type} (l : List α) (n : Nat) : l.take n ++ l.drop (l.take n).length = l := by
  rw [List.length_take]
  rcases Nat.le_total n l.length with h | h
  · rw [Nat.min_eq_left h, List.take_append_drop]
  · rw [Nat.min_eq_right h, List.take_of_length_le h, List.drop_length, List.append_nil]

/-- A page takes its rows from those left. -/
theorem fetchNextPage_spec (hi : Iterates w rows filters post it) :
    ∃ it', it.fetchNextPage w rows = .ok it' ∧ Iterates w rows filters post it' ∧ it'.currentPage.isSome = true ∧
      remaining w rows filters post it' = kept post ((matching w rows filters).drop it.fetchOffset) ∧
      fetches w rows filters it' ≤ (matching w rows filters).length - it.fetchOffset ∧
      it'.limit = it.limit ∧ it'.yielded = it.yielded := by
  have hraw : listRows w rows filters it.pageSize it.fetchOffset =
      ((matching w rows filters).drop it.fetchOffset).take it.pageSize := rfl
  have hlen := List.length_take (l := (matching w rows filters).drop it.fetchOffset) (i := it.pageSize)
  rw [List.length_drop, ← hraw] at hlen
  have hpos := hi.pageSize
  simp only [fetchNextPage, hi.parsed, ok_bind]
  refine ⟨_, rfl, ⟨rfl, hi.pageSize, fun _ ht => ?_⟩, rfl, ?_, ?_, rfl, rfl⟩
  · -- Without a token the page was not full.
    dsimp only at ht ⊢
    split at ht
    · cases ht
    · omega
  · simp only [remaining, Option.getD_some, List.drop_zero]
    rw [← kept, ← kept_append, ← List.drop_drop, hraw, take_append_drop_length]
  · simp only [fetches, Option.isNone_some, Bool.false_eq_true, false_or]
    by_cases hfull : (listRows w rows filters it.pageSize it.fetchOffset).length = it.pageSize ∧ 0 < it.pageSize
    · simp only [hfull, and_self, if_true, Option.isSome_some]
      omega
    · simp [hfull]

/-- What the loop of `__anext__` answers: the first of what is left, or its
end. -/
def Yields (w : QueryWorld F) (rows : List (WorkflowRow F)) (filters : DbosFilters F)
    (post : Option (WorkflowRow F → Bool)) (it : WorkflowExecutionAsyncIterator F) :
    Option (WorkflowExecution × WorkflowExecutionAsyncIterator F) → Prop
  | none => remaining w rows filters post it = []
  | some (e, it') =>
    Iterates w rows filters post it' ∧
      remaining w rows filters post it = e :: remaining w rows filters post it' ∧
      fetches w rows filters it' ≤ fetches w rows filters it ∧ it'.limit = it.limit ∧ it'.yielded = it.yielded + 1

theorem Yields.of_fetch {it' : WorkflowExecutionAsyncIterator F}
    {r : Option (WorkflowExecution × WorkflowExecutionAsyncIterator F)} (h : Yields w rows filters post it' r)
    (hrem : remaining w rows filters post it = remaining w rows filters post it')
    (hf : fetches w rows filters it' ≤ fetches w rows filters it) (hl : it'.limit = it.limit)
    (hy : it'.yielded = it.yielded) : Yields w rows filters post it r := by
  cases r with
  | none => exact hrem.trans h
  | some p =>
    obtain ⟨hi, hr, hf', hl', hy'⟩ := h
    exact ⟨hi, hrem.trans hr, hf'.trans hf, hl'.trans hl, hy'.trans (by rw [hy])⟩

theorem advance_spec {n : Nat} (hi : Iterates w rows filters post it) (hn : fetches w rows filters it < n) :
    ∃ r, advance w rows n it = .ok r ∧ Yields w rows filters post it r := by
  induction n generalizing it with
  | zero => omega
  | succ n ih =>
    -- Where a page is fetched, the answer is that of the iterator at the page.
    have hfetch (hnext : fetches w rows filters it = (matching w rows filters).length - it.fetchOffset + 1)
        (hdrop : (it.currentPage.getD []).drop it.currentPageIndex = []) :
        ∃ r, (it.fetchNextPage w rows >>= advance w rows n) = .ok r ∧ Yields w rows filters post it r := by
      obtain ⟨it', hit, hi', -, hrem, hf, hl, hyield⟩ := fetchNextPage_spec hi
      obtain ⟨r, hr, hy⟩ := ih hi' (by omega)
      refine ⟨r, by rw [hit, ok_bind, hr], hy.of_fetch ?_ (by omega) hl hyield⟩
      rw [hrem, remaining, hdrop, List.nil_append]
    cases hp : it.currentPage with
    | none =>
      simp only [advance, hp]
      exact hfetch (by simp [fetches, hp]) (by simp [hp])
    | some page =>
      cases he : page[it.currentPageIndex]? with
      | some e =>
        have hadvance : advance w rows (n + 1) it =
            .ok (some (e, { it with currentPageIndex := it.currentPageIndex + 1, yielded := it.yielded + 1 })) := by
          simp only [advance, hp, he]
        refine ⟨_, hadvance, ⟨hi.parsed, hi.pageSize, hi.last⟩, ?_, Nat.le_refl _, rfl, rfl⟩
        obtain ⟨hlt, rfl⟩ := List.getElem?_eq_some_iff.1 he
        simp only [remaining, hp, Option.getD_some]
        rw [List.drop_eq_getElem_cons hlt, List.cons_append]
      | none =>
        have hdrop : page.drop it.currentPageIndex = [] := List.drop_eq_nil_of_le (List.getElem?_eq_none_iff.1 he)
        cases ht : it.nextPageToken with
        | some token =>
          simp only [advance, hp, he, ht, Option.isSome_some, if_true]
          exact hfetch (by simp [fetches, ht]) (by rw [hp]; exact hdrop)
        | none =>
          simp only [advance, hp, he, ht, Option.isSome_none, Bool.false_eq_true, if_false]
          have hlast := hi.last (by rw [hp]; rfl) ht
          refine ⟨_, rfl, ?_⟩
          simp only [Yields, remaining, hp, Option.getD_some, hdrop, List.drop_eq_nil_of_le hlast]
          rfl

/-- The first of the executions, no more than the limit allows. -/
def capped (limit : Option Nat) (yielded : Nat) (xs : List WorkflowExecution) : List WorkflowExecution :=
  match limit with
  | none => xs
  | some l => xs.take (l - yielded)

/-- What is left is what `async for` takes, up to the limit. -/
theorem drain_spec {n : Nat} (hi : Iterates w rows filters post it)
    (hn : (remaining w rows filters post it).length + fetches w rows filters it < n) :
    drain w rows n it = .ok (capped it.limit it.yielded (remaining w rows filters post it)) := by
  induction n generalizing it with
  | zero => omega
  | succ n ih =>
    by_cases hl : it.limit.any (· ≤ it.yielded) = true
    · obtain ⟨l, hlim, hle⟩ := (Option.any_eq_true _ _).1 hl
      have hzero : l - it.yielded = 0 := by
        have := of_decide_eq_true hle
        omega
      rw [drain, anext, if_pos hl, ok_bind, hlim]
      simp only [capped, hzero, List.take_zero]
    · obtain ⟨r, hr, hy⟩ := advance_spec hi (n := n + 1) (by omega)
      rw [drain, anext, if_neg hl, hr, ok_bind]
      cases r with
      | none =>
        have hnil : remaining w rows filters post it = [] := hy
        rw [hnil]
        cases it.limit <;> simp [capped]
      | some p =>
        obtain ⟨e, it'⟩ := p
        obtain ⟨hi', hrem, hf, hlim, hyield⟩ := hy
        rw [hrem, List.length_cons] at hn
        dsimp only
        rw [ih hi' (by omega), hrem, hlim, hyield]
        cases hl' : it.limit with
        | none => rfl
        | some l =>
          have hsucc : l - it.yielded = l - (it.yielded + 1) + 1 := by
            rw [hl', Option.any_some, decide_eq_true_eq] at hl
            omega
          simp only [capped]
          rw [hsucc, List.take_succ_cons]
          rfl

/-- An iterator that has fetched nothing. -/
theorem drain_init {n : Nat} (hi : Iterates w rows filters post it) (hp : it.currentPage = none)
    (hy : it.yielded = 0) (hn : 2 * rows.length + 1 < n) :
    drain w rows n it = .ok (capped it.limit 0 (remaining w rows filters post it)) := by
  have hlen : (remaining w rows filters post it).length ≤ rows.length := by
    rw [remaining, hp, Option.getD_none, List.drop_nil, List.nil_append]
    refine (length_kept_le _).trans ?_
    rw [List.length_drop]
    exact (Nat.sub_le _ _).trans length_matching_le
  have hfetches : fetches w rows filters it ≤ rows.length + 1 := by
    have hle : (matching w rows filters).length ≤ rows.length := length_matching_le
    simp only [fetches, hp, Option.isNone_none, true_or, if_true]
    omega
  rw [drain_spec hi (by omega), hy]

/-! ## Tokens -/

/-- An iterator as `list_workflows` makes it (`__init__`), or one whose query
was parsed before. -/
def init (query : Option String) (pageSize : Nat) (limit nextPageToken : Option Nat)
    (parsed : Option (DbosFilters F × Option (WorkflowRow F → Bool))) : WorkflowExecutionAsyncIterator F where
  query
  pageSize
  limit
  fetchOffset := nextPageToken.getD 0
  nextPageToken
  parsed

/-- `fetch_next_page(page_size=size)`. -/
def fetchNextPageOf (w : QueryWorld F) (rows : List (WorkflowRow F)) (size : Option Nat)
    (it : WorkflowExecutionAsyncIterator F) : Except Exc (WorkflowExecutionAsyncIterator F) :=
  let used := if size.getD 0 = 0 then it.pageSize else size.getD 0
  (fetchNextPage w rows { it with pageSize := used }).map
    fun it' : WorkflowExecutionAsyncIterator F => { it' with pageSize := it.pageSize }

theorem fetchNextPageOf_none : it.fetchNextPageOf w rows none = it.fetchNextPage w rows := by
  simp only [fetchNextPageOf, Option.getD_none, if_true, fetchNextPage]
  cases it.ensureParsed w with
  | error e => rfl
  | ok p => rfl

/-- What becomes of an iterator while pages are fetched, by it or by its user,
and executions are taken; and the pages. -/
inductive Visits (w : QueryWorld F) (rows : List (WorkflowRow F)) (start : WorkflowExecutionAsyncIterator F) :
    WorkflowExecutionAsyncIterator F → List (List WorkflowExecution) → Prop
  | start : Visits w rows start start []
  | fetch {it it' : WorkflowExecutionAsyncIterator F} {pages : List (List WorkflowExecution)}
    (h : Visits w rows start it pages) (size : Option Nat) (hf : it.fetchNextPageOf w rows size = .ok it') :
    Visits w rows start it' (pages ++ [it'.currentPage.getD []])
  | take {it : WorkflowExecutionAsyncIterator F} {page : List WorkflowExecution} {e : WorkflowExecution}
    {pages : List (List WorkflowExecution)} (h : Visits w rows start it pages) (hp : it.currentPage = some page)
    (he : page[it.currentPageIndex]? = some e) :
    Visits w rows start { it with currentPageIndex := it.currentPageIndex + 1, yielded := it.yielded + 1 } pages

/-- `__anext__` visits no other state. -/
theorem Visits.advance {start it' : WorkflowExecutionAsyncIterator F} {pages : List (List WorkflowExecution)} {n : Nat}
    {e : WorkflowExecution} (h : Visits w rows start it pages) (ha : it.advance w rows n = .ok (some (e, it'))) :
    ∃ fetched, Visits w rows start it' (pages ++ fetched) := by
  induction n generalizing it pages with
  | zero => cases ha
  | succ n ih =>
    have hfetch
        (ha : (it.fetchNextPage w rows >>= WorkflowExecutionAsyncIterator.advance w rows n) = .ok (some (e, it'))) :
        ∃ fetched, Visits w rows start it' (pages ++ fetched) := by
      obtain ⟨it₁, hit, ha⟩ := bind_eq_ok.1 ha
      obtain ⟨fetched, hv⟩ := ih (h.fetch none (fetchNextPageOf_none.trans hit)) ha
      exact ⟨[it₁.currentPage.getD []] ++ fetched, by rwa [← List.append_assoc]⟩
    rw [WorkflowExecutionAsyncIterator.advance] at ha
    split at ha
    · exact hfetch ha
    · next page hp =>
      split at ha
      · next e' he =>
        cases ha
        exact ⟨[], by rw [List.append_nil]; exact h.take hp he⟩
      · split at ha
        · exact hfetch ha
        · cases ha

/-- The pages fetched are those of the rows up to the offset, which the token
tells unless there are no more. -/
structure Visited (w : QueryWorld F) (rows : List (WorkflowRow F)) (filters : DbosFilters F)
    (post : Option (WorkflowRow F → Bool)) (it : WorkflowExecutionAsyncIterator F)
    (pages : List (List WorkflowExecution)) : Prop where
  iterates : Iterates w rows filters post it
  fetched : pages.flatten = kept post ((matching w rows filters).take it.fetchOffset)
  current : pages ≠ [] → it.currentPage.isSome = true
  token : ∀ t, it.currentPage.isSome = true → it.nextPageToken = some t → t = it.fetchOffset

theorem Visited.withSize {pages : List (List WorkflowExecution)} (h : Visited w rows filters post it pages) {size : Nat}
    (hs : 0 < size) : Visited w rows filters post { it with pageSize := size } pages where
  iterates := ⟨h.iterates.parsed, hs, h.iterates.last⟩
  fetched := h.fetched
  current := h.current
  token := h.token

theorem take_add_length_take {α : Type} (l : List α) (n k : Nat) :
    l.take (n + ((l.drop n).take k).length) = l.take n ++ (l.drop n).take k := by
  have htake : (l.drop n).take ((l.drop n).take k).length = (l.drop n).take k :=
    List.take_eq_take_iff.2 (by rw [List.length_take]; omega)
  rw [List.take_add, htake]

theorem Visited.fetch {it' : WorkflowExecutionAsyncIterator F} {pages : List (List WorkflowExecution)}
    (h : Visited w rows filters post it pages) (hf : it.fetchNextPage w rows = .ok it') :
    Visited w rows filters post it' (pages ++ [it'.currentPage.getD []]) := by
  obtain ⟨it₁, hit, hi, -⟩ := fetchNextPage_spec h.iterates
  rw [hf] at hit
  cases hit
  simp only [fetchNextPage, h.iterates.parsed, ok_bind] at hf
  have hraw : listRows w rows filters it.pageSize it.fetchOffset =
      ((matching w rows filters).drop it.fetchOffset).take it.pageSize := rfl
  cases hf
  refine ⟨hi, ?_, fun _ => rfl, fun t _ ht => ?_⟩
  · dsimp only
    rw [List.flatten_append, h.fetched, hraw, take_add_length_take, kept_append]
    simp [kept]
  · dsimp only at ht
    split at ht
    · exact (Option.some.inj ht).symm
    · cases ht

theorem Visited.fetchOf {it' : WorkflowExecutionAsyncIterator F} {pages : List (List WorkflowExecution)}
    (h : Visited w rows filters post it pages) {size : Option Nat} (hf : it.fetchNextPageOf w rows size = .ok it') :
    Visited w rows filters post it' (pages ++ [it'.currentPage.getD []]) := by
  obtain ⟨it₁, hit, rfl⟩ := except_map_eq_ok.1 hf
  have hsize := h.iterates.pageSize
  refine ((h.withSize ?_).fetch hit).withSize hsize
  split
  · exact hsize
  · omega

theorem Visits.visited {start : WorkflowExecutionAsyncIterator F} {pages : List (List WorkflowExecution)}
    (h : Visits w rows start it pages) (hs : Visited w rows filters post start []) :
    Visited w rows filters post it pages := by
  induction h with
  | start => exact hs
  | fetch h size hf ih => exact ih.fetchOf hf
  | take h hp he ih =>
    exact ⟨⟨ih.iterates.parsed, ih.iterates.pageSize, ih.iterates.last⟩, ih.fetched, ih.current, ih.token⟩

theorem iterates_init {query : Option String} {pageSize : Nat} {limit token : Option Nat}
    {parsed : Option (DbosFilters F × Option (WorkflowRow F → Bool))}
    (hp : (init query pageSize limit token parsed).ensureParsed w = .ok (filters, post)) (hs : 0 < pageSize) :
    Iterates w rows filters post (init query pageSize limit token parsed) :=
  ⟨hp, hs, fun h => by cases h⟩

theorem remaining_init {query : Option String} {pageSize : Nat} {limit token : Option Nat}
    {parsed : Option (DbosFilters F × Option (WorkflowRow F → Bool))} :
    remaining w rows filters post (init query pageSize limit token parsed) =
      kept post ((matching w rows filters).drop (token.getD 0)) := by
  simp [remaining, init]

theorem Visits.anext {start it' : WorkflowExecutionAsyncIterator F} {pages : List (List WorkflowExecution)} {n : Nat}
    {e : WorkflowExecution} (h : Visits w rows start it pages) (ha : it.anext w rows n = .ok (some (e, it'))) :
    ∃ fetched, Visits w rows start it' (pages ++ fetched) := by
  rw [WorkflowExecutionAsyncIterator.anext] at ha
  split at ha
  · cases ha
  · exact h.advance ha

/-- **Pagination is exact.** Iterating yields the first executions, up to the
limit, of the rows that are kept. After any pages that were fetched, by
`__anext__` or by the iterator's user, an iterator made from the token yields
the rest of them, and without a token there is no rest. -/
theorem pagination_exact {query : Option String} {pageSize : Nat}
    {parsed : Option (DbosFilters F × Option (WorkflowRow F → Bool))} (limit : Option Nat)
    (hp : (init query pageSize limit none parsed).ensureParsed w = .ok (filters, post)) (hsize : 0 < pageSize) :
    (∀ n, 2 * rows.length + 1 < n → drain w rows n (init query pageSize limit none parsed) =
      .ok (capped limit 0 (kept post (matching w rows filters)))) ∧
    (∀ it pages, Visits w rows (init query pageSize limit none parsed) it pages →
      ∀ n e it', it.anext w rows n = .ok (some (e, it')) →
        ∃ fetched, Visits w rows (init query pageSize limit none parsed) it' (pages ++ fetched)) ∧
    ∀ it pages, Visits w rows (init query pageSize limit none parsed) it pages → pages ≠ [] →
      (∀ token, it.nextPageToken = some token → ∀ pageSize' n, 0 < pageSize' → 2 * rows.length + 1 < n →
        ∃ rest, drain w rows n (init query pageSize' none (some token) parsed) = .ok rest ∧
          pages.flatten ++ rest = kept post (matching w rows filters)) ∧
      (it.nextPageToken = none → pages.flatten = kept post (matching w rows filters)) := by
  refine ⟨?_, fun it pages hv n e it' ha => hv.anext ha, ?_⟩
  · intro n hn
    rw [drain_init (iterates_init hp hsize) rfl rfl hn, remaining_init]
    rfl
  · intro it pages hv hne
    have hstart : Visited w rows filters post (init query pageSize limit none parsed) [] :=
      ⟨iterates_init hp hsize, by simp [init, kept], fun h => absurd rfl h, fun t h => by cases h⟩
    have h := hv.visited hstart
    have hpage := h.current hne
    constructor
    · intro token ht pageSize' n hsize' hn
      refine ⟨_, drain_init (iterates_init hp hsize') rfl rfl hn, ?_⟩
      rw [remaining_init, h.token token hpage ht, h.fetched]
      simp only [capped, init, Option.getD_some]
      rw [← kept_append, List.take_append_drop]
    · intro ht
      rw [h.fetched, List.take_of_length_le (h.iterates.last hpage ht)]

/-- One of three rows, a page of one row at a time. -/
theorem pagination_exact_one :
    drain sampleWorld [sampleRow, { sampleRow with name := none }, sampleRow] 9 (init none 1 (some 1) none none) =
      .ok [⟨"b", "Order"⟩] := by
  refine ((pagination_exact (some 1) rfl (by decide)).1 9 (by decide)).trans ?_
  decide +kernel

end WorkflowExecutionAsyncIterator

end Dbosify
