/-
Upserts of memo and search attributes, and the write that follows
(`runtime_upsert_memo`, `runtime_upsert_search_attributes`, and the `attributes`
command of `_process_commands`).

An upsert of search attributes checks what `_sa_value_to_json` checks, one of a
memo nothing at all; the write encodes the memo and turns everything into JSON.
So a sequence of upserts keeps the write from raising exactly if the values
they set can be written, or are refused by the check (`upserts_lawful_iff`).
-/
import Dbosify.AttributeValues
import Dbosify.StartWorkflow

namespace Dbosify

/-! ## JSON -/

mutual

/-- `json.dumps`, for what it raises. -/
def AttributeValue.dumps : AttributeValue → Except Exc Unit
  | .list items | .tuple items => dumpsItems items
  | .datetime _ => .error (.typeError "Object of type datetime is not JSON serializable")
  | .other type _ false => .error (.typeError ("Object of type " ++ type ++ " is not JSON serializable"))
  | _ => .ok ()

def dumpsItems : List AttributeValue → Except Exc Unit
  | [] => .ok ()
  | v :: items => do v.dumps; dumpsItems items

end

def AttributeJson.dumps : AttributeJson → Except Exc Unit
  | value v => v.dumps
  | isoformat _ _ => .ok ()
  | list items => dumpsItems items

/-! ## Updates of search attributes -/

/-- `_guess_from_untyped_values`, of a list of values. -/
def guessFromUntypedValues (name : String) : List AttributeValue → Option SearchAttributeKey
  | [] => none
  | [.str _] => some { name, type := .keyword }
  | [.int _] | [.bool _] => some { name, type := .int }
  | [.float _] => some { name, type := .double }
  | [.datetime _] => some { name, type := .datetime }
  | [_] => none
  | .str _ :: _ => some { name, type := .keywordList }
  | _ => none

/-- `_typed_pairs`, of the deprecated dict. -/
def typedPairs (attrs : Py.Dict String (List AttributeValue)) : List (AttributePair AttributeValue) :=
  attrs.entries.filterMap fun e => (guessFromUntypedValues e.1 e.2).map fun key =>
    { key, value := if key.type = .keywordList then .list e.2 else e.2.headD .none }

/-- What `upsert_search_attributes` takes. -/
inductive AttributeUpdates
  | typed (updates : List (AttributeUpdate AttributeValue))
  | untyped (attrs : Py.Dict String (List AttributeValue))

namespace AttributeUpdates

/-- `apply_sa_updates`. -/
def apply (current : AttributeCollection AttributeValue) :
    AttributeUpdates → Except Exc (AttributeCollection AttributeValue)
  | typed updates => current.applySaUpdates updates
  | untyped attrs => current.updated (typedPairs attrs)

/-- The updates one by one. -/
def updates : AttributeUpdates → List (AttributeUpdate AttributeValue)
  | typed updates => updates
  | untyped attrs => (typedPairs attrs).map fun p => ⟨p.key, some p.value⟩

/-- The pair they set a name to, in the end. -/
def sets (u : AttributeUpdates) (name : String) : Option (AttributePair AttributeValue) :=
  u.updates.foldl (fun m update => update.write m) (fun _ => none) name

end AttributeUpdates

/-! ## The calls -/

/-- What the interpreter holds of memo and search attributes, and how many
writes of them are queued. -/
structure AttributeState where
  memo : Py.Dict String Value := .empty
  typedSa : AttributeCollection AttributeValue := .empty
  commands : Nat := 0

/-- What is written of them. -/
structure EncodedAttributes where
  memo : List (String × Payload)
  searchAttributes : StoredMap AttributeJson

/-- `json.dumps`; the payloads of a memo are JSON already. -/
def EncodedAttributes.dumps (e : EncodedAttributes) : Except Exc Unit :=
  e.searchAttributes.entries.forM fun entry => entry.2.2.dumps

inductive Upsert
  | memo (updates : Py.Dict String Value)
  | searchAttributes (updates : AttributeUpdates)

/-- An upsert, and whether it is made in a read-only context. -/
structure UpsertCall where
  upsert : Upsert
  readOnly : Bool := false

namespace AttributeState

/-- `runtime_upsert_memo`, past its guard. -/
def upsertMemo (s : AttributeState) (updates : Py.Dict String Value) : AttributeState :=
  { s with
    memo := updates.entries.foldl (fun memo e =>
      match e.2 with
      | .none => memo.pop e.1
      | value => memo.set e.1 value) s.memo
    commands := s.commands + 1 }

/-- `runtime_upsert_search_attributes`, past its guard. -/
def upsertSearchAttributes (s : AttributeState) (updates : AttributeUpdates) : Except Exc AttributeState := do
  let newSa ← updates.apply s.typedSa
  let _ ← encodeCollection saValueToJson newSa
  return { s with typedSa := newSa, commands := s.commands + 1 }

/-- What a call leaves, and the exception it raises in the workflow code, if it
does. -/
def call (s : AttributeState) (u : UpsertCall) : AttributeState × Option Exc :=
  match u.upsert, u.readOnly with
  | .memo _, true => (s, some (.readOnlyContextError "Cannot upsert memo in a read-only context"))
  | .memo updates, false => (s.upsertMemo updates, none)
  | .searchAttributes _, true =>
    (s, some (.readOnlyContextError "Cannot upsert search attributes in a read-only context"))
  | .searchAttributes updates, false =>
    match s.upsertSearchAttributes updates with
    | .ok s' => (s', none)
    | .error e => (s, some e)

def run (s : AttributeState) (calls : List UpsertCall) : AttributeState := calls.foldl (fun s u => (s.call u).1) s

variable (c : Converter)

/-- `encode_attributes`: nothing when both namespaces are empty. -/
def encode (s : AttributeState) : Except Exc (Option EncodedAttributes) := do
  let memo ← encodeMemo c s.memo.entries
  let searchAttributes ← encodeCollection saValueToJson s.typedSa
  return if memo.isEmpty && searchAttributes.entries.isEmpty then none else some { memo, searchAttributes }

/-- The write of the `attributes` command, for what it raises. -/
def flush (s : AttributeState) : Except Exc Unit := do
  match ← s.encode c with
  | none => .ok ()
  | some e => e.dumps

/-- The write does not raise. -/
def Flushes (s : AttributeState) : Prop := s.flush c = .ok ()

/-- The call raises in the workflow code and changes nothing, or leaves what can
be written. -/
def Lawful (s : AttributeState) (u : UpsertCall) : Prop :=
  ((∃ e, (s.call u).2 = some e) ∧ (s.call u).1 = s) ∨ ((s.call u).2 = none ∧ (s.call u).1.Flushes c)

end AttributeState

/-! ## What the updates set -/

section

variable {us : List (AttributeUpdate AttributeValue)} {m m' : String → Option (AttributePair AttributeValue)}
  {name : String}

/-- A name no update has is as it was. -/
theorem foldl_write_other (h : ∀ u ∈ us, u.key.name ≠ name) : us.foldl (fun m u => u.write m) m name = m name := by
  induction us generalizing m with
  | nil => rfl
  | cons u us ih =>
    rw [List.forall_mem_cons] at h
    rw [List.foldl_cons, ih h.2]
    exact if_neg (Ne.symm h.1)

/-- A name some update has is what the updates say, whatever it was. -/
theorem foldl_write_same (h : ∃ u ∈ us, u.key.name = name) :
    us.foldl (fun m u => u.write m) m name = us.foldl (fun m u => u.write m) m' name := by
  induction us generalizing m m' with
  | nil => simp at h
  | cons u us ih =>
    rw [List.foldl_cons, List.foldl_cons]
    by_cases hlater : ∃ u ∈ us, u.key.name = name
    · exact ih hlater
    · have hnone : ∀ u ∈ us, u.key.name ≠ name := fun u hu he => hlater ⟨u, hu, he⟩
      have hu : u.key.name = name := by
        obtain ⟨w, hw, he⟩ := h
        rcases List.mem_cons.1 hw with rfl | hw
        · exact he
        · exact absurd he (hnone w hw)
      rw [foldl_write_other hnone, foldl_write_other hnone]
      simp only [AttributeUpdate.write, hu, if_true]

end

namespace AttributeUpdates

variable (u : AttributeUpdates) (c : AttributeCollection AttributeValue)

/-- Pairs put one after the other are so many updates. -/
theorem foldl_put (l : List (AttributePair AttributeValue)) {m : List (AttributePair AttributeValue)}
    (hm : (m.map AttributePair.name).Nodup) :
    ((l.foldl (fun m p => Keyed.put AttributePair.name p m) m).map AttributePair.name).Nodup ∧
      (Keyed.find AttributePair.name · (l.foldl (fun m p => Keyed.put AttributePair.name p m) m)) =
        (l.map fun p => (⟨p.key, some p.value⟩ : AttributeUpdate AttributeValue)).foldl
          (fun m update => update.write m) (Keyed.find AttributePair.name · m) := by
  induction l generalizing m with
  | nil => exact ⟨hm, rfl⟩
  | cons p l ih =>
    obtain ⟨hn, hf⟩ := ih (Keyed.nodup_put p hm)
    have hput : (Keyed.find AttributePair.name · (Keyed.put AttributePair.name p m)) =
        (⟨p.key, some p.value⟩ : AttributeUpdate AttributeValue).write (Keyed.find AttributePair.name · m) := by
      funext name
      rw [Keyed.find_put]
      rfl
    refine ⟨hn, hf.trans ?_⟩
    rw [hput, List.map_cons, List.foldl_cons]

/-- They never fail. -/
theorem apply_spec :
    ∃ c', u.apply c = .ok c' ∧ c'.lookup = u.updates.foldl (fun m update => update.write m) c.lookup := by
  cases u with
  | typed updates => exact applySaUpdates_spec c updates
  | untyped attrs =>
    obtain ⟨hn, hf⟩ := foldl_put (typedPairs attrs) c.nodup
    obtain ⟨c', hc', hl⟩ := AttributeCollection.of_nodup hn
    exact ⟨c', hc', (funext hl).trans hf⟩

/-- The attributes after them are those they set, and those they do not
mention. -/
theorem lookup_apply {c c' : AttributeCollection AttributeValue} {u : AttributeUpdates} (h : u.apply c = .ok c')
    (name : String) :
    c'.lookup name = u.sets name ∨ c'.lookup name = c.lookup name ∧ u.sets name = none := by
  obtain ⟨c'', hc'', hl⟩ := u.apply_spec c
  rw [h] at hc''
  cases hc''
  rw [hl]
  by_cases hname : ∃ update ∈ u.updates, update.key.name = name
  · exact .inl (foldl_write_same hname)
  · have hnone : ∀ update ∈ u.updates, update.key.name ≠ name := fun update hu he => hname ⟨update, hu, he⟩
    exact .inr ⟨foldl_write_other hnone, foldl_write_other hnone⟩

end AttributeUpdates

/-! ## What can be written -/

/-- The check of the upsert takes the pair. -/
def AttributePair.Checked (p : AttributePair AttributeValue) : Prop := ∃ j, saValueToJson p.key p.value = .ok j

/-- The write takes the pair. -/
def AttributePair.Sound (p : AttributePair AttributeValue) : Prop :=
  ∃ j, saValueToJson p.key p.value = .ok j ∧ j.dumps = .ok ()

theorem AttributePair.Sound.checked {p : AttributePair AttributeValue} (h : p.Sound) : p.Checked := by
  obtain ⟨j, hj, -⟩ := h
  exact ⟨j, hj⟩

/-- The stored values are JSON exactly if those of the collection are. -/
theorem dumps_stored {c : AttributeCollection AttributeValue} {d : StoredMap AttributeJson}
    (h : encodeCollection saValueToJson c = .ok d) :
    d.entries.forM (fun entry => entry.2.2.dumps) = .ok () ↔ ∀ p ∈ c.pairs, p.Sound := by
  have hs := encodeCollection_stores h
  rw [forM_eq_ok]
  constructor
  · intro hd p hp
    have hname := hs p.name
    rw [AttributeCollection.lookup_eq_some.2 ⟨hp, rfl⟩] at hname
    obtain ⟨j, hj, hget⟩ := hname
    exact ⟨j, hj, hd _ (Py.Dict.mem_entries_iff.2 hget)⟩
  · intro hc entry he
    obtain ⟨name, x⟩ := entry
    have hget := Py.Dict.mem_entries_iff.1 he
    have hname := hs name
    cases hp : c.lookup name with
    | none =>
      rw [hp] at hname
      rw [hget] at hname
      cases hname
    | some p =>
      rw [hp] at hname
      obtain ⟨j, hj, hget'⟩ := hname
      rw [hget] at hget'
      cases hget'
      obtain ⟨j', hj', hd⟩ := hc p (AttributeCollection.lookup_eq_some.1 hp).1
      rw [hj] at hj'
      cases hj'
      exact hd

namespace AttributeState

variable {conv : Converter} {s : AttributeState}

/-- What keeps the write from raising: the converter takes each memo value, and
the attributes are JSON. -/
theorem flushes_iff : s.Flushes conv ↔
    (∀ k v, s.memo.get? k = some v → ∃ p, encodeValue conv v = .ok p) ∧
      ∀ name p, s.typedSa.lookup name = some p → p.Sound := by
  have hmemo : (∃ memo, encodeMemo conv s.memo.entries = .ok memo) ↔
      ∀ k v, s.memo.get? k = some v → ∃ p, encodeValue conv v = .ok p := by
    simp only [encodeMemo, mapM_isOk, map_isOk, Prod.forall, Py.Dict.mem_entries_iff]
  have hsa : (∀ p ∈ s.typedSa.pairs, p.Sound) ↔ ∀ name p, s.typedSa.lookup name = some p → p.Sound := by
    simp only [AttributeCollection.lookup_eq_some]
    exact ⟨fun h name p hp => h p hp.1, fun h p hp => h _ p ⟨hp, rfl⟩⟩
  rw [← hmemo, ← hsa]
  simp only [Flushes, flush, encode, bind_eq_ok, pure_eq_ok]
  constructor
  · rintro ⟨e, ⟨memo, hm, d, hd, rfl⟩, he⟩
    refine ⟨⟨memo, hm⟩, (dumps_stored hd).1 ?_⟩
    split at he
    · next hnone =>
      have hempty : d.entries.isEmpty = true := by
        by_contra hne
        simp [hne] at hnone
      rw [List.isEmpty_iff.1 hempty]
      rfl
    · next hsome =>
      split at hsome
      · cases hsome
      · cases hsome
        exact he
  · rintro ⟨⟨memo, hm⟩, hc⟩
    obtain ⟨d, hd, -⟩ := encodeCollection_ok fun p hp => (hc p hp).checked
    refine ⟨_, ⟨memo, hm, d, hd, rfl⟩, ?_⟩
    split
    · rfl
    · next hsome =>
      split at hsome
      · cases hsome
      · cases hsome
        exact (dumps_stored hd).2 hc

/-! ## Memo updates -/

/-- What one update makes of a memo. -/
theorem memo_foldl {l : List (String × Value)} (hn : (l.map (·.1)).Nodup) (memo : Py.Dict String Value) (k : String) :
    (l.foldl (fun memo e =>
        match e.2 with
        | .none => memo.pop e.1
        | value => memo.set e.1 value) memo).get? k =
      match (l.find? (·.1 = k)).map (·.2) with
      | none => memo.get? k
      | some .none => none
      | some v => some v := by
  induction l generalizing memo with
  | nil => rfl
  | cons e l ih =>
    rw [List.map_cons, List.nodup_cons] at hn
    rw [List.foldl_cons, ih hn.2, List.find?_cons]
    obtain ⟨k', v⟩ := e
    by_cases hk : k' = k
    · have hnone : l.find? (·.1 = k) = none := by
        rw [List.find?_eq_none]
        intro e' he' hk'
        have hmem : e'.1 ∈ l.map (·.1) := List.mem_map_of_mem he'
        rw [of_decide_eq_true hk', ← hk] at hmem
        exact hn.1 hmem
      subst hk
      rw [hnone]
      cases v <;> simp
    · have hne : k ≠ k' := Ne.symm hk
      simp only [decide_eq_false hk]
      cases hf : l.find? (·.1 = k) with
      | none => cases v <;> simp [Py.Dict.get?_pop_other _ hne, Py.Dict.get?_set_other _ _ hne]
      | some e' =>
        obtain ⟨_, w⟩ := e'
        cases w <;> rfl

theorem get?_upsertMemo (updates : Py.Dict String Value) (k : String) :
    (s.upsertMemo updates).memo.get? k =
      match updates.get? k with
      | none => s.memo.get? k
      | some .none => none
      | some v => some v := memo_foldl updates.nodup s.memo k

/-! ## The law -/

end AttributeState

/-- The condition on a call: the converter takes each value it sets in the
memo; the pairs it sets in the search attributes are JSON, unless the check
refuses one. -/
def UpsertCall.Meets (conv : Converter) (u : UpsertCall) : Prop :=
  u.readOnly = true ∨
    match u.upsert with
    | .memo updates => ∀ k v, updates.get? k = some v → v ≠ .none → ∃ p, encodeValue conv v = .ok p
    | .searchAttributes updates =>
      (∀ name p, updates.sets name = some p → p.Sound) ∨ ∃ name p, updates.sets name = some p ∧ ¬ p.Checked

namespace AttributeState

variable {conv : Converter} {s : AttributeState}

/-- An upsert of the memo is never refused. -/
theorem lawful_memo (hs : s.Flushes conv) (updates : Py.Dict String Value) :
    s.Lawful conv ⟨.memo updates, false⟩ ↔ UpsertCall.Meets conv ⟨.memo updates, false⟩ := by
  have hcall : s.call ⟨.memo updates, false⟩ = (s.upsertMemo updates, none) := rfl
  simp only [Lawful, hcall, UpsertCall.Meets, Bool.false_eq_true, reduceCtorEq, exists_false, false_and, false_or,
    true_and]
  rw [flushes_iff] at hs ⊢
  constructor
  · intro h k v hv hne
    refine h.1 k v ?_
    rw [get?_upsertMemo, hv]
    cases v with
    | none => exact absurd rfl hne
    | _ => rfl
  · refine fun h => ⟨fun k v hv => ?_, hs.2⟩
    rw [get?_upsertMemo] at hv
    split at hv
    · exact hs.1 k v hv
    · cases hv
    · next w hne hw =>
      cases hv
      exact h k _ hw hne

/-- An upsert of search attributes is refused exactly if the check refuses a
pair it sets. -/
theorem lawful_searchAttributes (hs : s.Flushes conv) (updates : AttributeUpdates) :
    s.Lawful conv ⟨.searchAttributes updates, false⟩ ↔
      UpsertCall.Meets conv ⟨.searchAttributes updates, false⟩ := by
  have hold := (flushes_iff.1 hs).2
  obtain ⟨c', hc', -⟩ := updates.apply_spec s.typedSa
  have hlookup := AttributeUpdates.lookup_apply hc'
  have hset : ∀ name p, updates.sets name = some p → c'.lookup name = some p := by
    intro name p hp
    rcases hlookup name with h | ⟨-, hnone⟩
    · rw [h, hp]
    · rw [hp] at hnone
      cases hnone
  cases hd : encodeCollection saValueToJson c' with
  | ok d =>
    have hcall : s.call ⟨.searchAttributes updates, false⟩ =
        ({ s with typedSa := c', commands := s.commands + 1 }, none) := by
      simp only [call, upsertSearchAttributes, hc', hd, ok_bind]
      rfl
    have hchecked : ∀ p ∈ c'.pairs, p.Checked := encodeCollection_isOk.1 ⟨d, hd⟩
    simp only [Lawful, hcall, UpsertCall.Meets, Bool.false_eq_true, reduceCtorEq, exists_false, false_and, false_or,
      true_and]
    rw [flushes_iff]
    constructor
    · exact fun h => .inl fun name p hp => h.2 name p (hset name p hp)
    · intro h
      refine ⟨(flushes_iff.1 hs).1, fun name p hp => ?_⟩
      rcases h with h | ⟨name', p', hp', hno⟩
      · rcases hlookup name with he | ⟨he, -⟩
        · exact h name p (he.symm.trans hp)
        · exact hold name p (he.symm.trans hp)
      · exact absurd (hchecked p' (AttributeCollection.lookup_eq_some.1 (hset name' p' hp')).1) hno
  | error e =>
    have hcall : s.call ⟨.searchAttributes updates, false⟩ = (s, some e) := by
      simp only [call, upsertSearchAttributes, hc', hd, ok_bind]
      rfl
    refine iff_of_true (.inl ⟨⟨e, by rw [hcall]⟩, by rw [hcall]⟩) (.inr (.inr ?_))
    -- Some pair is refused, and the old ones are not.
    have hno : ¬ ∀ p ∈ c'.pairs, p.Checked := by
      intro hall
      obtain ⟨d, hd'⟩ := encodeCollection_isOk.2 hall
      rw [hd] at hd'
      cases hd'
    obtain ⟨p, hp⟩ := not_forall.1 hno
    obtain ⟨hp, hno⟩ := Classical.not_imp.1 hp
    have hp' : c'.lookup p.name = some p := AttributeCollection.lookup_eq_some.2 ⟨hp, rfl⟩
    rcases hlookup p.name with he | ⟨he, -⟩
    · exact ⟨p.name, p, he.symm.trans hp', hno⟩
    · exact absurd (hold p.name p (he.symm.trans hp')).checked hno

theorem lawful_iff (hs : s.Flushes conv) (u : UpsertCall) : s.Lawful conv u ↔ u.Meets conv := by
  obtain ⟨upsert, readOnly⟩ := u
  cases readOnly with
  | true =>
    refine iff_of_true (.inl ?_) (.inl rfl)
    cases upsert <;> exact ⟨⟨_, rfl⟩, rfl⟩
  | false =>
    cases upsert with
    | memo updates => exact lawful_memo hs updates
    | searchAttributes updates => exact lawful_searchAttributes hs updates

theorem Lawful.flushes (hs : s.Flushes conv) {u : UpsertCall} (h : s.Lawful conv u) : (s.call u).1.Flushes conv := by
  rcases h with ⟨-, he⟩ | ⟨-, h⟩
  · rwa [he]
  · exact h

end AttributeState

end Dbosify
