/-
Listing one workflow id (`WorkflowId = 'X'`).

DBOS is asked for the ids that `X` starts, and the post-filter keeps `X` and
what goes on with the run separator. A run of `X` does so, with its number; but
so does a child of a later run, `X--r2_5`, which is no run of `X`.
-/
import Dbosify.CountWorkflows
import Dbosify.Quoting

namespace Dbosify

variable {F : Type} {w : QueryWorld F}

/-! ## The query -/

/-- `WorkflowId = 'X'`. -/
def workflowIdQuery (x : String) : String := "WorkflowId = " ++ quoteLiteral apostrophe x

theorem tokenize_workflowIdQuery (x : String) :
    tokenize w (workflowIdQuery x) = .ok [.ident "WorkflowId", .op .eq, .str x] := by
  have hb : tokenize w "WorkflowId = " = .ok [.ident "WorkflowId", .op .eq] := by rfl
  have h := tokenize_quoteLiteral (.inl rfl) hb (by simp) (show "".toList.head? ≠ some apostrophe by decide) x
  rw [String.append_empty] at h
  exact h

theorem parseQuery_workflowIdQuery (x : String) :
    parseQuery w (workflowIdQuery x) = .ok { workflowIdChain := some x } := by
  have hne : ¬ (Py.strip (workflowIdQuery x).toList).isEmpty = true := by
    intro h
    have hmem : 'W' ∈ (workflowIdQuery x).toList := by
      rw [workflowIdQuery, String.toList_append]
      exact List.mem_append_left _ (by decide)
    exact absurd (strip_eq_nil h 'W' hmem) (by decide)
  have hgroup : ¬ keyword (F := F) "GROUP" (.ident "WorkflowId") = true := by
    show ¬ decide (asciiUpper "WorkflowId" = "GROUP") = true
    decide
  have hclause : parseClause w [.ident "WorkflowId", .op .eq, .str x] =
      .ok ({ field := "WorkflowId", op := .eq, value := .scalar (.str x) }, []) := by
    have hfield : asciiUpper "WorkflowId" ∉ ["AND", "OR", "ORDER", "GROUP", "IN", "STARTS_WITH"] := by decide
    rw [parseClause, parseField, if_neg hfield]
    rfl
  have hsystem : systemField "WorkflowId" = some .workflowId := by decide
  rw [parseQuery, if_neg hne, tokenize_workflowIdQuery, ok_bind, List.length_cons, parseFrom, if_neg hgroup, hclause,
    ok_bind]
  simp only [applyClause, hsystem]
  rfl

/-! ## The runs of an id -/

/-- Whether `run_index_of` finds the id among the runs of `x`. -/
def isRunOf (x dbosId : String) : Bool :=
  match runIndexOf x dbosId with
  | .ok (some _) => true
  | _ => false

theorem isRunOf_iff {x d : String} : isRunOf x d = true ↔ ∃ n, runIndexOf x d = .ok (some n) := by
  unfold isRunOf
  split
  · next n h => simp [h]
  · next h => simp only [Bool.false_eq_true, false_iff]; rintro ⟨n, hn⟩; exact h n hn

/-- A workflow that is not hidden. -/
def WorkflowRow.visible (row : WorkflowRow F) : Bool := row.isWorkflow && !isReplayScratch row.workflowId

/-- After `x` and the run separator comes the number of a run. -/
def NumbersRun (x d : String) : Prop :=
  ∀ suffix, d.toList = x.toList ++ runSeparator.toList ++ suffix →
    Py.isdecimal suffix = true ∧ suffix.length ≤ Py.intMaxStrDigits

theorem inChain_iff {x d : String} :
    inChain x d = true ↔ d = x ∨ ∃ suffix, d.toList = x.toList ++ runSeparator.toList ++ suffix := by
  rw [inChain, Bool.or_eq_true, decide_eq_true_eq, List.isPrefixOf_iff_prefix, String.toList_append]
  exact or_congr Iff.rfl (exists_congr fun suffix => eq_comm)

theorem isdigit_of_isdecimal {s : List Char} (h : Py.isdecimal s = true) : Py.isdigit s = true := by
  rw [Py.isdecimal, Bool.and_eq_true, List.all_eq_true] at h
  rw [Py.isdigit, Bool.and_eq_true, List.all_eq_true]
  exact ⟨h.1, fun c hc => by rw [Py.isDigitChar, h.2 c hc]; rfl⟩

theorem isRunOf_suffix {x d : String} {suffix : List Char} (hd : d.toList = x.toList ++ runSeparator.toList ++ suffix) :
    isRunOf x d = true ↔ Py.isdecimal suffix = true ∧ suffix.length ≤ Py.intMaxStrDigits := by
  rw [isRunOf_iff, runIndexOf_suffix hd]
  by_cases hs : Py.isdigit suffix = true
  · rw [if_pos hs, ← intOf_isOk hs]
    cases intOf suffix with
    | error e => simp [Except.map]
    | ok n => simp [Except.map]
  · rw [if_neg hs]
    exact iff_of_false (by simp) fun h => hs (isdigit_of_isdecimal h.1)

theorem isRunOf_self (x : String) : isRunOf x x = true := by
  rw [isRunOf_iff, runIndexOf, if_pos rfl]
  exact ⟨0, rfl⟩

/-- A run of `x` is in the chain the filter keeps. -/
theorem inChain_of_isRunOf {x d : String} (h : isRunOf x d = true) : inChain x d = true := by
  obtain ⟨n, hn⟩ := isRunOf_iff.1 h
  rw [inChain_iff]
  by_cases he : d = x
  · exact .inl he
  · by_cases hp : x.toList ++ runSeparator.toList <+: d.toList
    · obtain ⟨suffix, hd⟩ := hp
      exact .inr ⟨suffix, hd.symm⟩
    · rw [runIndexOf_of_no_base he hp] at hn
      cases hn

/-- What the filter keeps is a run where only numbers follow the separator. -/
theorem isRunOf_of_inChain {x d : String} (h : inChain x d = true) : isRunOf x d = true ↔ NumbersRun x d := by
  rcases inChain_iff.1 h with rfl | ⟨suffix, hd⟩
  · refine iff_of_true (isRunOf_self d) fun suffix hs => ?_
    rw [List.append_assoc] at hs
    simp [runSeparator] at hs
  · rw [isRunOf_suffix hd]
    refine ⟨fun h suffix' hd' => ?_, fun h => h suffix hd⟩
    rw [hd, List.append_cancel_left_eq] at hd'
    exact hd' ▸ h

/-! ## What is listed -/

theorem selects_workflowIdQuery (x : String) (row : WorkflowRow F) :
    VisibilityQuery.selects w { workflowIdChain := some x } row = inChain x row.workflowId := by
  rw [Bool.eq_iff_iff, selects_iff]
  constructor
  · exact fun h => h.2.2.chain x rfl
  · intro h
    refine ⟨⟨?_, ?_, ?_, ?_⟩, ⟨?_, ?_, ?_, ?_⟩, ⟨?_, ?_, ?_⟩⟩
    all_goals simp [h]

theorem filter_eq_iff {α β : Type} {p q : α → Bool} {f : α → β} (h : ∀ a, q a = true → p a = true)
    (l : List α) : (l.filter p).map f = (l.filter q).map f ↔ ∀ a ∈ l, p a = true → q a = true := by
  constructor
  · intro he a ha hp
    have hlen := congrArg List.length he
    rw [List.length_map, List.length_map] at hlen
    have hsub : (l.filter q).Sublist (l.filter p) := by
      have hf : l.filter q = (l.filter p).filter q := by
        rw [List.filter_filter]
        exact List.filter_congr fun b _ => by cases hq : q b <;> simp [h b, hq]
      rw [hf]
      exact List.filter_sublist
    have heq := hsub.eq_of_length hlen.symm
    have hmem : a ∈ l.filter q := heq ▸ List.mem_filter.2 ⟨ha, hp⟩
    exact (List.mem_filter.1 hmem).2
  · intro hall
    refine congrArg _ (List.filter_congr fun a ha => ?_)
    rw [Bool.eq_iff_iff]
    exact ⟨hall a ha, h a⟩

/-- **`WorkflowId = 'X'` lists exactly the runs of `X`** where, of the visible
rows, none goes on after `X--r` with anything but the number of a run. -/
theorem workflowId_lists_chain_iff (w : QueryWorld F) (rows : List (WorkflowRow F)) (x : String) {pageSize n : Nat}
    (hsize : 0 < pageSize) (hn : 2 * rows.length + 1 < n) :
    listWorkflows w rows (some (workflowIdQuery x)) pageSize n =
        .ok ((rows.filter fun row => row.visible && isRunOf x row.workflowId).map executionFromStatus) ↔
      ∀ row ∈ rows, row.visible = true → NumbersRun x row.workflowId := by
  have hq : parseOptionalQuery w (some (workflowIdQuery x)) = .ok { workflowIdChain := some x } :=
    parseQuery_workflowIdQuery x
  rw [listWorkflows_ok hq hsize hn]
  have hlisted : listedRows w rows { workflowIdChain := some x } =
      rows.filter fun row => row.visible && inChain x row.workflowId := by
    refine List.filter_congr fun row _ => ?_
    rw [selects_workflowIdQuery, WorkflowRow.visible]
    ac_rfl
  have hsub (row : WorkflowRow F) (h : (row.visible && isRunOf x row.workflowId) = true) :
      (row.visible && inChain x row.workflowId) = true := by
    rw [Bool.and_eq_true] at h ⊢
    exact ⟨h.1, inChain_of_isRunOf h.2⟩
  rw [hlisted, Except.ok.injEq, filter_eq_iff hsub]
  refine forall₂_congr fun row _ => ?_
  by_cases hv : row.visible = true
  · simp only [hv, Bool.true_and, true_imp_iff]
    by_cases hc : inChain x row.workflowId = true
    · simp only [hc, true_imp_iff, isRunOf_of_inChain hc]
    · refine iff_of_true (fun h => absurd h hc) fun suffix hs => absurd (inChain_iff.2 (.inr ⟨suffix, hs⟩)) hc
  · simp [hv]

/-- A run and a run after it. -/
theorem workflowId_lists_chain_runs :
    listWorkflows sampleWorld [sampleRow, { sampleRow with workflowId := "b--r2" }] (some (workflowIdQuery "b")) 1 6 =
      .ok [⟨"b", "Order"⟩, ⟨"b--r2", "Order"⟩] := by
  refine ((workflowId_lists_chain_iff sampleWorld _ "b" (by decide) (by decide)).2 ?_).trans (by decide +kernel)
  intro row hrow _
  simp only [List.mem_cons, List.not_mem_nil, or_false] at hrow
  rcases hrow with rfl | rfl
  · exact (isRunOf_of_inChain (by decide +kernel)).1 (by decide +kernel)
  · exact (isRunOf_of_inChain (by decide +kernel)).1 (by decide +kernel)

/-- A child of a later run is listed too. -/
theorem workflowId_lists_child :
    let rows := [sampleRow, { sampleRow with workflowId := "b--r2_1" }]
    listWorkflows sampleWorld rows (some (workflowIdQuery "b")) 1 6 ≠
      .ok ((rows.filter fun row => row.visible && isRunOf "b" row.workflowId).map executionFromStatus) := by
  decide +kernel

end Dbosify
