/-
Who a run is told it is, and who its replay is told it is.

A run reads its identity off the DBOS id it executes under, the parent link of
its row, and its metadata. A replay executes the same input over the same
checkpoints, but under a scratch id: nothing undoes the renaming, so that every
id the replay is told is another (`replay_identity`).
-/
import Dbosify.ChainMeta
import Dbosify.RunIds

namespace Dbosify

/-! ## Identity -/

/-- `workflow.ParentInfo`. -/
structure ParentInfo where
  workflowId : String
  runId : String
deriving DecidableEq, Repr

/-- The fields of `workflow.Info` that say who the run is. -/
structure Info where
  workflowId : String
  runId : String
  firstExecutionRunId : String
  parent : Option ParentInfo
  root : Option Root
  continuedRunId : Option String
  attempt : Nat
deriving DecidableEq

/-- A run's row: its id, its input and its parent link. -/
structure RunRow where
  dbosId : String
  input : RunInput
  parentWorkflowId : Option String := none

namespace RunRow

variable (r : RunRow)

/-- `_continued_from` and `_parent_run_id` (`execute`): a link within the chain
is a continuation, another a parent. -/
def links : Except Exc (Option String × Option String) :=
  match r.parentWorkflowId with
  | none => .ok (none, none)
  | some parent => do
    let ofParent ← parseRun parent
    let own ← parseRun r.dbosId
    if ofParent.1 = own.1 then .ok (some parent, none) else .ok (none, some parent)

/-- The `ParentInfo` of a parent's run id. -/
def parentInfo : Option String → Except Exc (Option ParentInfo)
  | none => .ok none
  | some parent => (parseRun parent).map fun p => some { workflowId := p.1, runId := parent }

/-- `runtime_info`. -/
def info : Except Exc Info := do
  let (continuedFrom, parentRunId) ← r.links
  let base ← parseRun r.dbosId
  let parent ← parentInfo parentRunId
  let m := (unwrapInput r.input).2
  .ok {
    workflowId := base.1
    runId := r.dbosId
    firstExecutionRunId := base.1
    parent
    root := m.root
    continuedRunId := continuedFrom
    attempt := m.run.attempt }

/-- The scratch fork of a run: its input under a scratch id, with whatever
parent link the fork's row gets (`start_replay_fork`). -/
def replayFork (mode : ReplayMode) (suffix : String) (link : Option String) : RunRow :=
  { r with dbosId := replayScratchId r.dbosId mode suffix, parentWorkflowId := link }

/-- The same identity, and the same automatic child ids. -/
def SameIdentity (r f : RunRow) : Prop := f.info = r.info ∧ ∀ seq, childId f.dbosId seq = childId r.dbosId seq

/-! ## What an identity is made of -/

variable {r}

theorem info_eq {i : Info} (h : r.info = .ok i) :
    ∃ n parentRunId, parseRun r.dbosId = .ok (i.workflowId, n) ∧ r.links = .ok (i.continuedRunId, parentRunId) ∧
      i.runId = r.dbosId ∧ i.firstExecutionRunId = i.workflowId ∧ i.root = (unwrapInput r.input).2.root ∧
      i.attempt = (unwrapInput r.input).2.run.attempt := by
  simp only [info, bind_eq_ok] at h
  obtain ⟨⟨continuedFrom, parentRunId⟩, hlinks, ⟨base, n⟩, hbase, parent, hparent, he⟩ := h
  cases he
  exact ⟨n, parentRunId, hbase, hlinks, rfl, rfl, rfl, rfl⟩

/-- A continuation is of the run's own base. -/
theorem base_of_continued {p base : String} {parentRunId : Option String} {n : Nat} (h : r.links = .ok (some p, parentRunId))
    (hbase : parseRun r.dbosId = .ok (base, n)) : ∃ k, parseRun p = .ok (base, k) := by
  rw [links] at h
  cases hl : r.parentWorkflowId with
  | none => rw [hl] at h; cases h
  | some parent =>
    simp only [hl, bind_eq_ok, hbase, Except.ok.injEq, exists_eq_left'] at h
    obtain ⟨⟨pbase, k⟩, hp, h⟩ := h
    split at h
    · next he =>
      cases h
      have he : pbase = base := he
      exact ⟨k, he ▸ hp⟩
    · cases h

end RunRow

/-! ## Scratch ids -/

theorem occursIn_scratch (r : String) (mode : ReplayMode) (suffix : String) :
    occursIn (.ofList ['-', '-', modeLetter mode]) (replayScratchId r mode suffix) = true := by
  rw [occursIn_iff, ← scratchSeparator_eq]
  exact ⟨r.toList, suffix.toList, by simp [replayScratchId]⟩

theorem replayScratchId_ne (r : String) (mode : ReplayMode) (suffix : String) : replayScratchId r mode suffix ≠ r := by
  intro h
  have hlen := congrArg (fun s => s.toList.length) h
  cases mode <;> simp [replayScratchId, scratchSeparator, verifySeparator, rehydrateSeparator] at hlen

/-- What comes before the run separator of a scratch id is no base id. -/
theorem scratch_base {r base suffix : String} {mode : ReplayMode} {n : Nat}
    (h : parseRun (replayScratchId r mode suffix) = .ok (base, n)) : ¬ BaseId base := by
  intro hb
  have hocc := occursIn_scratch r mode suffix
  have hfree := hb.occursIn_reserved (reservedLetter_modeLetter mode)
  by_cases hne : replayScratchId r mode suffix = base
  · rw [hne, hfree] at hocc
    cases hocc
  · obtain ⟨digits, hd, hs, -⟩ := suffix_of_parseRun h hne
    have hd' : replayScratchId r mode suffix = base ++ (runSeparator ++ .ofList digits) := by
      apply String.toList_inj.1
      rw [hd, String.toList_append, String.toList_append, String.toList_ofList, List.append_assoc]
    have hmem : modeLetter mode ∉ (runSeparator ++ String.ofList digits).toList := by
      rw [String.toList_append, String.toList_ofList, List.mem_append, not_or]
      cases mode <;> exact ⟨by decide, Py.notMem_of_isdigit hs (by decide +kernel)⟩
    rw [hd', occursIn_append hmem, hfree] at hocc
    cases hocc

/-- The base of a run id, where it parses. -/
theorem RunId.base {r base : String} {n : Nat} (hr : RunId r) (h : parseRun r = .ok (base, n)) : BaseId base := by
  obtain ⟨b, m, hb, rfl⟩ := hr
  cases m with
  | zero =>
    rw [show runDbosId b 0 = b from rfl, hb.reads_back] at h
    cases h
    exact hb
  | succ m =>
    rw [parseRun_runDbosId_succ] at h
    cases hi : intOf (Nat.toDigits 10 (m + 1)) with
    | error e => rw [hi] at h; cases h
    | ok v => rw [hi] at h; cases h; exact hb

theorem childId_inj {r r' : String} {seq : Nat} (h : childId r seq = childId r' seq) : r = r' := by
  apply String.toList_inj.1
  have hlist := congrArg String.toList h
  simpa only [childId, String.toList_append, List.append_assoc, List.append_cancel_right_eq] using hlist

/-- **A replay is told another identity than the run it replays**, whatever the
run, the mode, the suffix and the parent link of the fork: another workflow id,
run id and first run, no automatic child id of the run, and of a later run not
the run before it. The root and the attempt, which the metadata carries, are
the same. -/
theorem replay_identity {r : RunRow} (hr : RunId r.dbosId) (mode : ReplayMode) (suffix : String) (link : Option String) :
    ¬ r.SameIdentity (r.replayFork mode suffix link) ∧
    (∀ seq, childId (r.replayFork mode suffix link).dbosId seq ≠ childId r.dbosId seq) ∧
    ∀ i f, r.info = .ok i → (r.replayFork mode suffix link).info = .ok f →
      f.workflowId ≠ i.workflowId ∧ f.runId ≠ i.runId ∧ f.firstExecutionRunId ≠ i.firstExecutionRunId ∧
      (i.continuedRunId ≠ none → f.continuedRunId ≠ i.continuedRunId) ∧ f.root = i.root ∧ f.attempt = i.attempt := by
  have hchild : ∀ seq, childId (r.replayFork mode suffix link).dbosId seq ≠ childId r.dbosId seq :=
    fun seq h => replayScratchId_ne r.dbosId mode suffix (childId_inj h)
  refine ⟨fun h => hchild 0 (h.2 0), hchild, fun i f hi hf => ?_⟩
  obtain ⟨n, parentRunId, hbase, hlinks, hrun, hfirst, hroot, hattempt⟩ := RunRow.info_eq hi
  obtain ⟨n', parentRunId', hbase', hlinks', hrun', hfirst', hroot', hattempt'⟩ := RunRow.info_eq hf
  have hb : BaseId i.workflowId := hr.base hbase
  have hb' : ¬ BaseId f.workflowId := scratch_base hbase'
  have hne : f.workflowId ≠ i.workflowId := fun h => hb' (h ▸ hb)
  refine ⟨hne, ?_, ?_, ?_, ?_, ?_⟩
  · rw [hrun, hrun']
    exact replayScratchId_ne r.dbosId mode suffix
  · rwa [hfirst, hfirst']
  · intro hcont hsame
    obtain ⟨p, hp⟩ := Option.ne_none_iff_exists'.1 hcont
    rw [hsame, hp] at hlinks'
    rw [hp] at hlinks
    -- The link would be a continuation of either base.
    obtain ⟨k, hk⟩ := RunRow.base_of_continued hlinks hbase
    obtain ⟨k', hk'⟩ := RunRow.base_of_continued hlinks' hbase'
    rw [hk, Except.ok.injEq, Prod.mk.injEq] at hk'
    exact hne hk'.1.symm
  · rw [hroot, hroot', RunRow.replayFork]
  · rw [hattempt, hattempt', RunRow.replayFork]

/-- The second run of a chain. -/
def secondRun : RunRow := { dbosId := "W--r1", input := .bare [], parentWorkflowId := some "W" }

/-- `W--r1` is a run of `W`; its verification takes the whole scratch id for
its workflow id, and derives its children's ids from it. -/
theorem second_run_replayed :
    ¬ ∀ (r : RunRow) (mode : ReplayMode) (suffix : String) (link : Option String), RunId r.dbosId →
      r.SameIdentity (r.replayFork mode suffix link) := by
  intro h
  have hrun : RunId secondRun.dbosId := ⟨"W", 1, .validated (by decide), rfl⟩
  have hsame := (h secondRun .verify "f00d" (some "W") hrun).2 1
  exact absurd hsame (by decide +kernel)

/-- The theorem at that run. -/
theorem second_run_identity :
    childId (secondRun.replayFork .verify "f00d" none).dbosId 1 ≠ childId secondRun.dbosId 1 :=
  (replay_identity (r := secondRun) ⟨"W", 1, .validated (by decide), rfl⟩ .verify "f00d" none).2.1 1

end Dbosify
