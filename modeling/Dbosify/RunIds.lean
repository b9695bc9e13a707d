/-
Run ids read back, and the reserved namespaces.

A run id is its base id, or the base, the run separator and the run's index.
Two functions read it: `parse_run` splits at the last separator, `run_index_of`
takes a base off the front. Activity ids and scratch ids are run ids with a
reserved separator and more after it.
-/
import Dbosify.Interp
import Dbosify.ScheduleFire
import Dbosify.Strings

namespace Dbosify

/-! ## Reading a run id -/

/-- `int(suffix)`. -/
def intOf (suffix : List Char) : Except Exc Nat := (Py.int suffix).mapError .valueError

/-- `ids.parse_run`. -/
def parseRun (dbosId : String) : Except Exc (String × Nat) :=
  if occursIn runSeparator dbosId then
    match Py.rpartition runSeparator.toList dbosId.toList with
    | some (base, suffix) => if Py.isdigit suffix then (intOf suffix).map (.ofList base, ·) else .ok (dbosId, 0)
    | none => .ok (dbosId, 0)
  else .ok (dbosId, 0)

/-- `ids.run_index_of`. -/
def runIndexOf (workflowId dbosId : String) : Except Exc (Option Nat) :=
  if dbosId = workflowId then .ok (some 0)
  else if ¬ (workflowId ++ runSeparator).toList.isPrefixOf dbosId.toList then .ok none
  else
    let suffix := dbosId.toList.drop (workflowId ++ runSeparator).toList.length
    if Py.isdigit suffix then (intOf suffix).map some else .ok none

/-! ## The ids there are -/

/-- The automatic id of a child (`runtime_start_child_workflow`). -/
def childId (runId : String) (seq : Nat) : String := runId ++ "_" ++ toString seq

/-- `f"{action['id']}-{int(fired_at.timestamp())}"`, a time before 1970
included. -/
def scheduledId (actionId : String) (epoch : Int) : String := actionId ++ "-" ++ toString epoch

/-- From 1970 on it is the id the overlap lookup goes by. -/
theorem scheduledId_natCast (actionId : String) (ts : Nat) : scheduledId actionId ts = occurrenceId actionId ts := rfl

/-- The ids that have runs: validated, automatic for a child of such a run,
or those of a schedule's occurrences. -/
inductive BaseId : String → Prop
  | validated {w : String} (h : validateWorkflowId w = none) : BaseId w
  | child {b : String} (h : BaseId b) (n seq : Nat) : BaseId (childId (runDbosId b n) seq)
  | occurrence {w : String} (h : validateWorkflowId w = none) (epoch : Int) : BaseId (scheduledId w epoch)

def RunId (r : String) : Prop := ∃ b n, BaseId b ∧ r = runDbosId b n

theorem occursIn_iff {separator s : String} : occursIn separator s = true ↔ separator.toList <:+: s.toList := by
  rw [occursIn, List.any_eq_true, List.infix_iff_prefix_suffix]
  simp only [List.mem_tails, List.isPrefixOf_iff_prefix]
  constructor
  · rintro ⟨t, hs, hp⟩; exact ⟨t, hp, hs⟩
  · rintro ⟨t, hp, hs⟩; exact ⟨t, hs, hp⟩

/-- What lacks a separator's letter completes no separator. -/
theorem occursIn_append {x : Char} {a s : String} (hx : x ∉ s.toList) :
    occursIn (.ofList ['-', '-', x]) (a ++ s) = occursIn (.ofList ['-', '-', x]) a := by
  rw [Bool.eq_iff_iff, occursIn_iff, occursIn_iff, String.toList_append, String.toList_ofList]
  exact Py.infix_append_of_notMem (w := ['-', '-']) hx

theorem notMem_toString {x : Char} (hx : x.isDigit = false) (n : Nat) : x ∉ (toString n).toList := by
  intro h
  rw [Nat.toString_eq_ofList_toDigits, String.toList_ofList] at h
  rw [Py.isDigit_toDigits h] at hx
  cases hx

theorem notMem_toString_int {x : Char} (hx : x.isDigit = false) (hm : x ≠ '-') (i : Int) : x ∉ (toString i).toList := by
  cases i with
  | ofNat n => exact notMem_toString hx n
  | negSucc n =>
    have he : toString (Int.negSucc n) = "-" ++ toString (n + 1) := rfl
    rw [he, String.toList_append, List.mem_append, not_or]
    exact ⟨by simpa using hm, notMem_toString hx (n + 1)⟩

/-! ## No reserved separator in a run id -/

/-- A letter that no run id puts after a hyphen pair of its own. -/
def reservedLetter (x : Char) : Bool := x == 'a' || x == 'v' || x == 'q'

theorem runDbosId_succ (b : String) (n : Nat) : runDbosId b (n + 1) = b ++ (runSeparator ++ toString (n + 1)) := by
  rw [runDbosId, if_neg (by omega), String.append_assoc]

theorem occursIn_of_validate {w : String} (h : validateWorkflowId w = none) (separator : String)
    (hs : separator ∈ [runSeparator, activitySeparator, verifySeparator, rehydrateSeparator]) :
    occursIn separator w = false := by
  rw [validateWorkflowId] at h
  split at h
  · cases h
  · rw [Option.map_eq_none_iff, List.find?_eq_none] at h
    exact Bool.eq_false_iff.2 (h separator hs)

theorem reservedLetter_cases {x : Char} (hx : reservedLetter x = true) : x = 'a' ∨ x = 'v' ∨ x = 'q' := by
  simp only [reservedLetter, Bool.or_eq_true, beq_iff_eq] at hx
  rcases hx with (h | h) | h
  exacts [.inl h, .inr (.inl h), .inr (.inr h)]

theorem occursIn_reserved_validated {w : String} (h : validateWorkflowId w = none) {x : Char}
    (hx : reservedLetter x = true) : occursIn (.ofList ['-', '-', x]) w = false := by
  rcases reservedLetter_cases hx with rfl | rfl | rfl
  · exact occursIn_of_validate h activitySeparator (by simp)
  · exact occursIn_of_validate h verifySeparator (by simp)
  · exact occursIn_of_validate h rehydrateSeparator (by simp)

/-- A run's suffix leaves the reserved separators as they were. -/
theorem occursIn_runDbosId {x : Char} (hx : reservedLetter x = true) (b : String) (n : Nat) :
    occursIn (.ofList ['-', '-', x]) (runDbosId b n) = occursIn (.ofList ['-', '-', x]) b := by
  cases n with
  | zero => rfl
  | succ n =>
    rw [runDbosId_succ, occursIn_append]
    rw [String.toList_append, List.mem_append, not_or]
    rcases reservedLetter_cases hx with rfl | rfl | rfl <;> exact ⟨by decide, notMem_toString rfl _⟩

theorem BaseId.occursIn_reserved {b : String} (h : BaseId b) {x : Char} (hx : reservedLetter x = true) :
    occursIn (.ofList ['-', '-', x]) b = false := by
  induction h with
  | validated hv => exact occursIn_reserved_validated hv hx
  | child _ n seq ih =>
    rw [childId, String.append_assoc, occursIn_append, occursIn_runDbosId hx, ih]
    rw [String.toList_append, List.mem_append, not_or]
    rcases reservedLetter_cases hx with rfl | rfl | rfl <;> exact ⟨by decide, notMem_toString rfl _⟩
  | occurrence hv epoch =>
    rw [scheduledId, String.append_assoc, occursIn_append, occursIn_reserved_validated hv hx]
    rw [String.toList_append, List.mem_append, not_or]
    rcases reservedLetter_cases hx with rfl | rfl | rfl <;>
      exact ⟨by decide, notMem_toString_int rfl (by decide) _⟩

/-- No run id contains a reserved separator but the run separator. -/
theorem RunId.occursIn_reserved {r : String} (h : RunId r) {x : Char} (hx : reservedLetter x = true) :
    occursIn (.ofList ['-', '-', x]) r = false := by
  obtain ⟨b, n, hb, rfl⟩ := h
  rw [occursIn_runDbosId hx, hb.occursIn_reserved hx]

/-! ## A run id reads back -/

theorem parseRun_of_rpartition {d : String} {base suffix : List Char}
    (h : Py.rpartition runSeparator.toList d.toList = some (base, suffix)) :
    parseRun d = if Py.isdigit suffix then (intOf suffix).map (.ofList base, ·) else .ok (d, 0) := by
  have hocc : occursIn runSeparator d = true := by
    rw [occursIn_iff]
    exact ⟨base, suffix, (Py.eq_of_rpartition h).symm⟩
  rw [parseRun, if_pos hocc, h]

theorem parseRun_of_rpartition_none {d : String} (h : Py.rpartition runSeparator.toList d.toList = none) :
    parseRun d = .ok (d, 0) := by
  rw [parseRun, h]
  split <;> rfl

theorem parseRun_of_not_occursIn {d : String} (h : occursIn runSeparator d = false) : parseRun d = .ok (d, 0) := by
  rw [parseRun, if_neg (by rw [h]; exact Bool.false_ne_true)]

/-- The run separator, and digits after it. -/
theorem rpartition_run (b : String) {suffix : List Char} (hs : Py.isdigit suffix = true) :
    Py.rpartition runSeparator.toList (b.toList ++ runSeparator.toList ++ suffix) = some (b.toList, suffix) :=
  Py.rpartition_append (w := ['-', '-']) (x := 'r') (Py.notMem_of_isdigit hs (by decide +kernel)) b.toList

/-- A base id is its own run 0: no separator in it has only digits after it. -/
theorem BaseId.reads_back {b : String} (h : BaseId b) : parseRun b = .ok (b, 0) := by
  cases h with
  | validated hv => exact parseRun_of_not_occursIn (occursIn_of_validate hv runSeparator (by simp))
  | occurrence hv epoch =>
    refine parseRun_of_not_occursIn ?_
    rw [scheduledId, String.append_assoc]
    have hr : 'r' ∉ ("-" ++ toString epoch).toList := by
      rw [String.toList_append, List.mem_append, not_or]
      exact ⟨by decide, notMem_toString_int rfl (by decide) _⟩
    exact (occursIn_append hr).trans (occursIn_of_validate hv runSeparator (by simp))
  | @child b _ n seq =>
    have hr : 'r' ∉ ("_" ++ toString seq).toList := by
      rw [String.toList_append, List.mem_append, not_or]
      exact ⟨by decide, notMem_toString rfl _⟩
    have hpart := Py.rpartition_append_of_notMem (w := ['-', '-']) hr (runDbosId b n).toList
    rw [← String.toList_append, ← String.append_assoc, ← childId] at hpart
    cases hp : Py.rpartition (['-', '-'] ++ ['r']) (runDbosId b n).toList with
    | none =>
      rw [hp] at hpart
      exact parseRun_of_rpartition_none hpart
    | some p =>
      rw [hp] at hpart
      rw [parseRun_of_rpartition hpart, if_neg]
      intro hd
      refine Py.notMem_of_isdigit hd (c := '_') (by decide +kernel) ?_
      simp

/-- The suffix of a later run, as characters. -/
theorem toList_runDbosId_succ (b : String) (n : Nat) :
    (runDbosId b (n + 1)).toList = b.toList ++ runSeparator.toList ++ Nat.toDigits 10 (n + 1) := by
  rw [runDbosId_succ, String.toList_append, String.toList_append, List.append_assoc, Nat.toString_eq_ofList_toDigits,
    String.toList_ofList]

theorem parseRun_suffix {b d : String} {suffix : List Char} (hd : d.toList = b.toList ++ runSeparator.toList ++ suffix)
    (hs : Py.isdigit suffix = true) : parseRun d = (intOf suffix).map (b, ·) := by
  have hp := rpartition_run b hs
  rw [← hd] at hp
  rw [parseRun_of_rpartition hp, if_pos hs, String.ofList_toList]

theorem parseRun_runDbosId_succ (b : String) (n : Nat) :
    parseRun (runDbosId b (n + 1)) = (intOf (Nat.toDigits 10 (n + 1))).map (b, ·) :=
  parseRun_suffix (toList_runDbosId_succ b n) (Py.isdigit_toDigits (n + 1))

/-- A run id reads back, as long as its index is short enough for `int`. -/
theorem parseRun_runDbosId {b : String} (h : BaseId b) (n : Nat) :
    parseRun (runDbosId b n) = .ok (b, n) ↔ n < 10 ^ Py.intMaxStrDigits := by
  cases n with
  | zero =>
    have hpos : 0 < 10 ^ Py.intMaxStrDigits := Nat.pow_pos (by omega)
    exact iff_of_true h.reads_back hpos
  | succ n =>
    rw [parseRun_runDbosId_succ, ← Py.int_toDigits, intOf]
    cases Py.int (Nat.toDigits 10 (n + 1)) <;> simp [Except.map, Except.mapError]

/-- No base id is a later run's. -/
theorem BaseId.ne_run {b : String} (h : BaseId b) (b' : String) (n : Nat) : b ≠ runDbosId b' (n + 1) := by
  intro he
  have hp := parseRun_runDbosId_succ b' n
  rw [← he, h.reads_back] at hp
  have hb : b = b' := by
    cases hi : intOf (Nat.toDigits 10 (n + 1)) with
    | error e => rw [hi] at hp; cases hp
    | ok v => rw [hi] at hp; cases hp; rfl
  have hlen := congrArg String.toList he
  rw [toList_runDbosId_succ, hb, List.append_assoc] at hlen
  simp [runSeparator] at hlen

/-- Run ids of bases are told apart by base and index. -/
theorem runDbosId_inj {b b' : String} (hb : BaseId b) (hb' : BaseId b') {n n' : Nat}
    (h : runDbosId b n = runDbosId b' n') : b = b' ∧ n = n' := by
  cases n with
  | zero =>
    cases n' with
    | zero => exact ⟨h, rfl⟩
    | succ n' => exact absurd h (hb.ne_run b' n')
  | succ n =>
    cases n' with
    | zero => exact absurd h.symm (hb'.ne_run b n)
    | succ n' =>
      have hp := rpartition_run b (Py.isdigit_toDigits (n + 1))
      rw [← toList_runDbosId_succ, h, toList_runDbosId_succ, rpartition_run b' (Py.isdigit_toDigits (n' + 1))] at hp
      obtain ⟨hbase, hdigits⟩ := Prod.mk.inj (Option.some.inj hp)
      have hn := congrArg (Nat.ofDigitChars 10 · 0) hdigits
      simp only [Nat.ofDigitChars_ten_toDigits] at hn
      exact ⟨(String.toList_inj.1 hbase).symm, hn.symm⟩

/-! ## Two decoders -/

/-- What `parse_run` splits off is after the separator, and nothing but
digits. -/
theorem suffix_of_parseRun {d b : String} {n : Nat} (h : parseRun d = .ok (b, n)) (hne : d ≠ b) :
    ∃ suffix, d.toList = b.toList ++ runSeparator.toList ++ suffix ∧ Py.isdigit suffix = true ∧ intOf suffix = .ok n := by
  cases hp : Py.rpartition runSeparator.toList d.toList with
  | none =>
    rw [parseRun_of_rpartition_none hp] at h
    cases h
    exact absurd rfl hne
  | some p =>
    obtain ⟨base, suffix⟩ := p
    rw [parseRun_of_rpartition hp] at h
    by_cases hs : Py.isdigit suffix = true
    · rw [if_pos hs] at h
      cases hi : intOf suffix with
      | error e => rw [hi] at h; cases h
      | ok v =>
        rw [hi] at h
        cases h
        exact ⟨suffix, by rw [Py.eq_of_rpartition hp, String.toList_ofList], hs, hi⟩
    · rw [if_neg hs] at h
      cases h
      exact absurd rfl hne

theorem runIndexOf_suffix {b d : String} {suffix : List Char} (hd : d.toList = b.toList ++ runSeparator.toList ++ suffix) :
    runIndexOf b d = if Py.isdigit suffix then (intOf suffix).map some else .ok none := by
  have hne : d ≠ b := by
    intro he
    rw [he, List.append_assoc] at hd
    simp [runSeparator] at hd
  have hp : (b ++ runSeparator).toList.isPrefixOf d.toList = true := by
    rw [List.isPrefixOf_iff_prefix, hd, String.toList_append]
    exact List.prefix_append _ _
  rw [runIndexOf, if_neg hne, if_neg (not_not.2 hp), hd, String.toList_append, List.drop_left]

theorem runIndexOf_of_no_base {b d : String} (hne : d ≠ b) (hp : ¬ b.toList ++ runSeparator.toList <+: d.toList) :
    runIndexOf b d = .ok none := by
  rw [runIndexOf, if_neg hne, if_pos]
  rwa [List.isPrefixOf_iff_prefix, String.toList_append]

/-- The two decoders agree on every string. -/
theorem runIndexOf_eq_some {b : String} (h : BaseId b) (d : String) (n : Nat) :
    runIndexOf b d = .ok (some n) ↔ parseRun d = .ok (b, n) := by
  by_cases hne : d = b
  · rw [hne, h.reads_back, runIndexOf, if_pos rfl]
    simp
  by_cases hp : b.toList ++ runSeparator.toList <+: d.toList
  · obtain ⟨suffix, hd⟩ := hp
    rw [runIndexOf_suffix hd.symm]
    by_cases hs : Py.isdigit suffix = true
    · rw [if_pos hs, parseRun_suffix hd.symm hs]
      cases intOf suffix <;> simp [Except.map]
    · rw [if_neg hs]
      refine iff_of_false (by simp) fun hr => ?_
      obtain ⟨suffix', hd', hs', _⟩ := suffix_of_parseRun hr hne
      rw [← hd, List.append_cancel_left_eq] at hd'
      exact hs (hd' ▸ hs')
  · rw [runIndexOf_of_no_base hne hp]
    refine iff_of_false (by simp) fun hr => ?_
    obtain ⟨suffix, hd, _⟩ := suffix_of_parseRun hr hne
    exact hp ⟨suffix, hd.symm⟩

/-- What follows the last run separator, if it is nothing but digits, is
nothing but decimal ones, and not too many for `int`. -/
def Readable (d : String) : Prop :=
  ∀ base suffix, Py.rpartition runSeparator.toList d.toList = some (base, suffix) → Py.isdigit suffix = true →
    Py.isdecimal suffix = true ∧ suffix.length ≤ Py.intMaxStrDigits

theorem intOf_isOk {s : List Char} (hs : Py.isdigit s = true) :
    (∃ n, intOf s = .ok n) ↔ Py.isdecimal s = true ∧ s.length ≤ Py.intMaxStrDigits := by
  have hne : s.isEmpty = false := by
    rw [Py.isdigit, Bool.and_eq_true, Bool.not_eq_true'] at hs
    exact hs.1
  have hm : (∃ n, intOf s = .ok n) ↔ ∃ n, Py.int s = .ok n := by
    rw [intOf]
    cases Py.int s <;> simp [Except.mapError]
  rw [hm, Py.int_isOk, Py.digitsValue_isSome, Py.isdecimal, hne]
  rfl

/-- `parse_run` returns exactly on the readable strings. -/
theorem parseRun_isOk {d : String} : (∃ r, parseRun d = .ok r) ↔ Readable d := by
  cases hp : Py.rpartition runSeparator.toList d.toList with
  | none =>
    refine iff_of_true ⟨_, parseRun_of_rpartition_none hp⟩ fun base suffix h => ?_
    rw [hp] at h
    cases h
  | some p =>
    obtain ⟨base, suffix⟩ := p
    rw [parseRun_of_rpartition hp]
    have hr : Readable d ↔
        (Py.isdigit suffix = true → Py.isdecimal suffix = true ∧ suffix.length ≤ Py.intMaxStrDigits) := by
      refine ⟨fun h => h base suffix hp, fun h b s hb => ?_⟩
      rw [hp] at hb
      cases hb
      exact h
    rw [hr]
    by_cases hs : Py.isdigit suffix = true
    · rw [if_pos hs, ← intOf_isOk hs]
      cases intOf suffix <;> simp [Except.map, hs]
    · rw [if_neg hs]
      exact iff_of_true ⟨_, rfl⟩ fun h => absurd h hs

theorem runIndexOf_isOk {b d : String} (h : Readable d) : ∃ r, runIndexOf b d = .ok r := by
  by_cases hne : d = b
  · exact ⟨some 0, by rw [runIndexOf, if_pos hne]⟩
  by_cases hp : b.toList ++ runSeparator.toList <+: d.toList
  · obtain ⟨suffix, hd⟩ := hp
    rw [runIndexOf_suffix hd.symm]
    by_cases hs : Py.isdigit suffix = true
    · have hpart := rpartition_run b hs
      rw [hd] at hpart
      obtain ⟨n, hn⟩ := (intOf_isOk hs).2 (h _ _ hpart hs)
      exact ⟨some n, by rw [if_pos hs, hn]; rfl⟩
    · exact ⟨none, if_neg hs⟩
  · exact ⟨none, runIndexOf_of_no_base hne hp⟩

/-- **The run-id codec.** A run id reads back as its base and index as long as
`int` takes so many digits, and no two are the same. On a string whatsoever,
the two decoders return and agree exactly when the string is readable. -/
theorem run_id_codec {b : String} (h : BaseId b) :
    (∀ n, parseRun (runDbosId b n) = .ok (b, n) ↔ n < 10 ^ Py.intMaxStrDigits) ∧
    (∀ b' n n', BaseId b' → runDbosId b n = runDbosId b' n' → b = b' ∧ n = n') ∧
    ∀ d, ((∃ r, parseRun d = .ok r) ∧ (∃ r, runIndexOf b d = .ok r) ∧
      ∀ n, runIndexOf b d = .ok (some n) ↔ parseRun d = .ok (b, n)) ↔ Readable d := by
  refine ⟨parseRun_runDbosId h, fun b' n n' hb' => runDbosId_inj h hb', fun d => ?_⟩
  constructor
  · rintro ⟨hp, _⟩
    exact parseRun_isOk.1 hp
  · intro hr
    exact ⟨parseRun_isOk.2 hr, runIndexOf_isOk hr, runIndexOf_eq_some h d⟩

/-- A child of a later run, and a run of that child, read back. -/
theorem child_codec : parseRun "W--r2_5--r3" = .ok ("W--r2_5", 3) := by
  have hbase : BaseId "W--r2_5" := .child (b := "W") (.validated (by decide)) 2 5
  have hlt : 3 < 10 ^ Py.intMaxStrDigits :=
    lt_of_lt_of_le (by decide : 3 < 10 ^ 1) (Nat.pow_le_pow_right (by decide) (by decide))
  exact ((run_id_codec hbase).1 3).2 hlt

/-- A superscript is a digit that is not decimal: both decoders raise. -/
theorem superscript_raises :
    parseRun "W--r²" = .error (.valueError "invalid literal for int() with base 10: '²'") ∧
      runIndexOf "W" "W--r²" = .error (.valueError "invalid literal for int() with base 10: '²'") := by
  decide +kernel

/-! ## The reserved namespaces -/

/-- The separator of a replay mode (`ids.replay_scratch_id`). -/
def scratchSeparator : ReplayMode → String
  | .verify => verifySeparator
  | .rehydrate => rehydrateSeparator

/-- `ids.replay_scratch_id`. -/
def replayScratchId (runId : String) (mode : ReplayMode) (suffix : String) : String :=
  runId ++ scratchSeparator mode ++ suffix

/-- `ids.replay_scratch_mode`. -/
def replayScratchMode (dbosId : String) : Option ReplayMode :=
  if occursIn verifySeparator dbosId then some .verify
  else if occursIn rehydrateSeparator dbosId then some .rehydrate
  else none

/-- `ids.is_replay_scratch`. -/
def isReplayScratch (dbosId : String) : Bool := (replayScratchMode dbosId).isSome

/-- No reserved separator occurs in it. -/
def FreeOfSeparators (suffix : String) : Prop :=
  ∀ separator ∈ [runSeparator, activitySeparator, verifySeparator, rehydrateSeparator], occursIn separator suffix = false

instance (suffix : String) : Decidable (FreeOfSeparators suffix) := by
  unfold FreeOfSeparators; infer_instance

/-- The letter of a mode's separator. -/
def modeLetter : ReplayMode → Char
  | .verify => 'v'
  | .rehydrate => 'q'

theorem scratchSeparator_eq (mode : ReplayMode) : scratchSeparator mode = .ofList ['-', '-', modeLetter mode] := by
  cases mode <;> rfl

theorem reservedLetter_modeLetter (mode : ReplayMode) : reservedLetter (modeLetter mode) = true := by
  cases mode <;> rfl

theorem FreeOfSeparators.occursIn_mode {suffix : String} (h : FreeOfSeparators suffix) (mode : ReplayMode) :
    occursIn (.ofList ['-', '-', modeLetter mode]) suffix = false := by
  cases mode with
  | verify => exact h verifySeparator (by simp)
  | rehydrate => exact h rehydrateSeparator (by simp)

/-- Another letter's separator, and what follows it, leave a separator as it
was in either part. -/
theorem occursIn_append_separator {x y : Char} (hxy : y ≠ x) (hx : x ≠ '-') (hy : y ≠ '-') (a s : String) :
    occursIn (.ofList ['-', '-', x]) (a ++ .ofList ['-', '-', y] ++ s) =
      (occursIn (.ofList ['-', '-', x]) a || occursIn (.ofList ['-', '-', x]) s) := by
  have hdash : x ∉ ['-', '-'] := by simpa using hx
  have hmem : y ∉ ['-', '-', x] := by simp [hxy, hy]
  have hlist : (a ++ .ofList ['-', '-', y] ++ s).toList = (a.toList ++ ['-', '-']) ++ y :: s.toList := by
    simp
  rw [Bool.eq_iff_iff, Bool.or_eq_true, occursIn_iff, occursIn_iff, occursIn_iff, hlist, String.toList_ofList,
    Py.infix_append_letter hmem, show ['-', '-', x] = ['-', '-'] ++ [x] from rfl, Py.infix_append_of_notMem hdash]

theorem replayScratchMode_scratch {r : String} (hr : RunId r) (mode : ReplayMode) {suffix : String}
    (hs : FreeOfSeparators suffix) : replayScratchMode (replayScratchId r mode suffix) = some mode := by
  cases mode with
  | verify =>
    have hocc : occursIn verifySeparator (replayScratchId r .verify suffix) = true := by
      rw [occursIn_iff]
      exact ⟨r.toList, suffix.toList, by simp [replayScratchId, scratchSeparator]⟩
    rw [replayScratchMode, if_pos hocc]
  | rehydrate =>
    have hv : occursIn verifySeparator (replayScratchId r .rehydrate suffix) = false := by
      rw [replayScratchId, scratchSeparator_eq]
      refine (occursIn_append_separator (x := 'v') (y := 'q') (by decide) (by decide) (by decide) r suffix).trans ?_
      rw [hr.occursIn_reserved rfl]
      exact hs verifySeparator (by simp)
    have hocc : occursIn rehydrateSeparator (replayScratchId r .rehydrate suffix) = true := by
      rw [occursIn_iff]
      exact ⟨r.toList, suffix.toList, by simp [replayScratchId, scratchSeparator]⟩
    rw [replayScratchMode, if_neg (by rw [hv]; exact Bool.false_ne_true), if_pos hocc]

theorem replayScratchMode_of_free {d : String} (h : ∀ mode, occursIn (.ofList ['-', '-', modeLetter mode]) d = false) :
    replayScratchMode d = none := by
  rw [replayScratchMode, if_neg, if_neg]
  · exact Bool.eq_false_iff.1 (h .rehydrate)
  · exact Bool.eq_false_iff.1 (h .verify)

theorem RunId.mode_eq_none {r : String} (hr : RunId r) : replayScratchMode r = none :=
  replayScratchMode_of_free fun mode => hr.occursIn_reserved (reservedLetter_modeLetter mode)

theorem replayScratchMode_activity {r : String} (hr : RunId r) (seq : Nat) :
    replayScratchMode (activityDbosId r seq) = none := by
  refine replayScratchMode_of_free fun mode => ?_
  rw [activityDbosId, String.append_assoc, occursIn_append, hr.occursIn_reserved (reservedLetter_modeLetter mode)]
  rw [String.toList_append, List.mem_append, not_or]
  cases mode <;> exact ⟨by decide, notMem_toString rfl _⟩

theorem occursIn_activity (r : String) (seq : Nat) : occursIn activitySeparator (activityDbosId r seq) = true := by
  rw [occursIn_iff]
  exact ⟨r.toList, (toString seq).toList, by simp [activityDbosId]⟩

/-- A run id in front of a reserved separator is told by the first such
separator. -/
theorem append_separator_inj {x : Char} (hx : reservedLetter x = true) {r r' s s' : String} (hr : RunId r) (hr' : RunId r')
    (h : r ++ .ofList ['-', '-', x] ++ s = r' ++ .ofList ['-', '-', x] ++ s') : r = r' ∧ s = s' := by
  have hfree {r : String} (hr : RunId r) : ¬ ['-', '-'] ++ [x] <:+: r.toList := by
    intro hi
    have hocc := hr.occursIn_reserved hx
    rw [occursIn_iff.2 (by rwa [String.toList_ofList])] at hocc
    cases hocc
  have hdash : x ∉ ['-', '-'] := by
    rcases reservedLetter_cases hx with rfl | rfl | rfl <;> decide
  have hlist := congrArg String.toList h
  simp only [String.toList_append, String.toList_ofList] at hlist
  obtain ⟨ha, hb⟩ := Py.append_separator_inj hdash (hfree hr) (hfree hr') hlist
  exact ⟨String.toList_inj.1 ha, String.toList_inj.1 hb⟩

/-- **The reserved namespaces are disjoint**, and each id in them reads back:
the mode of a scratch id, and the run and the rest of an activity id or a
scratch id. -/
theorem reserved_namespaces {r : String} (hr : RunId r) (seq : Nat) (mode : ReplayMode) {suffix : String}
    (hs : FreeOfSeparators suffix) :
    replayScratchMode (replayScratchId r mode suffix) = some mode ∧
    replayScratchMode r = none ∧
    replayScratchMode (activityDbosId r seq) = none ∧
    (∀ r', RunId r' → activityDbosId r seq ≠ r' ∧ replayScratchId r mode suffix ≠ r') ∧
    (∀ r' seq', RunId r' → replayScratchId r mode suffix ≠ activityDbosId r' seq') ∧
    (∀ r' seq', RunId r' → activityDbosId r seq = activityDbosId r' seq' → r = r' ∧ seq = seq') ∧
    (∀ r' mode' suffix', RunId r' → FreeOfSeparators suffix' →
      replayScratchId r mode suffix = replayScratchId r' mode' suffix' → r = r' ∧ mode = mode' ∧ suffix = suffix') := by
  have hmode := replayScratchMode_scratch hr mode hs
  refine ⟨hmode, hr.mode_eq_none, replayScratchMode_activity hr seq, ?_, ?_, ?_, ?_⟩
  · intro r' hr'
    constructor
    · intro he
      have hocc := occursIn_activity r seq
      rw [he] at hocc
      exact absurd hocc (Bool.eq_false_iff.1 (hr'.occursIn_reserved (x := 'a') rfl))
    · intro he
      rw [he, hr'.mode_eq_none] at hmode
      cases hmode
  · intro r' seq' hr' he
    rw [he, replayScratchMode_activity hr' seq'] at hmode
    cases hmode
  · intro r' seq' hr' he
    obtain ⟨hrun, hseq⟩ := append_separator_inj (x := 'a') rfl hr hr' he
    refine ⟨hrun, ?_⟩
    have hn := congrArg (fun s => Nat.ofDigitChars 10 s.toList 0) hseq
    simpa [Nat.toString_eq_ofList_toDigits] using hn
  · intro r' mode' suffix' hr' hs' he
    have hmode' := replayScratchMode_scratch hr' mode' hs'
    rw [← he, hmode] at hmode'
    cases hmode'
    rw [replayScratchId, replayScratchId, scratchSeparator_eq] at he
    obtain ⟨hrun, hsuffix⟩ := append_separator_inj (reservedLetter_modeLetter mode) hr hr' he
    exact ⟨hrun, rfl, hsuffix⟩

/-- A hyphen at the end of an id, before each separator. -/
theorem hyphen_namespaces :
    replayScratchMode "w---r1--vt0" = some .verify ∧ replayScratchMode "w---r1--a3" = none ∧
      (∀ r seq, RunId r → "w---r1--vt0" ≠ activityDbosId r seq) := by
  have hrun : RunId "w---r1" := ⟨"w-", 1, .validated (by decide), rfl⟩
  have hsuffix : FreeOfSeparators "t0" := by decide
  have h := reserved_namespaces hrun 3 .verify hsuffix
  exact ⟨h.1, h.2.2.1, h.2.2.2.2.1⟩

end Dbosify
