/-
Awaiting many futures: `workflow.as_completed` and `workflow.wait`.

Both add one callback to each future they are given. `as_completed` hands out
as many awaitables as there are futures, and its callback puts the next future
that is done into the queue they read; its timer puts one `None` for each that
is left. `wait` counts its callbacks down, and its timer, its last callback or
the one that is enough releases it. Futures end, callbacks run, timers fire
and awaitables are awaited in any order: what is handed out is the futures in
the order in which they were done, each as often as it was given, and then
timeouts (`as_completed_hands_out`); and `wait` returns once what it waits for
has come or its timer has fired, not before, with its futures split in the
order they were given (`wait_returns`).
-/
import Dbosify.DoneCallbacks
import Dbosify.PastTime
import Dbosify.Values

namespace Dbosify

open Futures

variable {F : Type} [DecidableEq F]

/-- What is given: a future or a coroutine itself, or an iterable of them. -/
inductive Awaitables (F : Type)
  | one (typeName : String)
  | many (fs : List F)

/-! ## `as_completed` -/

/-- The generator's variables: `items` are those ever put into `done`, of which
the awaitables have taken the first `taken`. -/
structure AsCompleted (F : Type) where
  watch : Watch F
  todo : List F
  items : List (Option F) := []
  taken : Nat := 0
  /-- `timeout_handle` is armed. -/
  timer : Bool

/-- `as_completed`, up to its loop; a coroutine stands for its task. -/
def asCompleted (done : List F) (timeout : Bool) : Awaitables F → Except Exc (AsCompleted F)
  | .one typeName => .error (.typeError ("expect an iterable of futures, not " ++ typeName))
  | .many fs => .ok { watch := .of done fs, todo := fs, timer := timeout && !fs.isEmpty }

namespace AsCompleted

/-- `_on_timeout`. -/
def onTimeout (s : AsCompleted F) : AsCompleted F :=
  { s with
    watch := s.todo.foldl Watch.remove s.watch
    items := s.items ++ List.replicate s.todo.length none
    todo := []
    timer := false }

/-- `_on_completion`. -/
def onCompletion (s : AsCompleted F) (f : F) : Except Exc (AsCompleted F) :=
  if s.todo = [] then .ok s
  else if f ∈ s.todo then
    .ok { s with
      todo := s.todo.erase f
      items := s.items ++ [some f]
      timer := s.timer && !(s.todo.erase f).isEmpty }
  else .error (.valueError "list.remove(x): x not in list")

end AsCompleted

inductive CompletionEvent (F : Type)
  /-- A future is done. -/
  | complete (f : F)
  /-- The loop runs the next scheduled callback. -/
  | callback
  /-- The timer fires. -/
  | expire
  /-- An awaitable takes an item, if there is one. -/
  | take

def AsCompleted.step (s : AsCompleted F) : CompletionEvent F → Except Exc (AsCompleted F)
  | .complete f => .ok { s with watch := s.watch.complete f }
  | .callback =>
    match s.watch.ready with
    | [] => .ok s
    | f :: fs => { s with watch := { s.watch with ready := fs } }.onCompletion f
  | .expire => .ok (if s.timer then s.onTimeout else s)
  | .take => .ok (if s.taken < s.items.length then { s with taken := s.taken + 1 } else s)

/-- From the call on. -/
def AsCompleted.run (done : List F) (timeout : Bool) (fs : List F) (es : List (CompletionEvent F)) :
    Except Exc (AsCompleted F) := do
  es.foldlM step (← asCompleted done timeout (.many fs))

namespace AsCompleted

/-- The futures handed out, in order. -/
def handed (s : AsCompleted F) : List F := s.items.filterMap id

/-- How far `as_completed` is with the futures `fs`, of which `done` were done
at its call. -/
structure Law (fs done : List F) (timeout : Bool) (s : AsCompleted F) : Prop where
  /-- Futures come first, then timeouts. -/
  items : s.items = s.handed.map some ++ List.replicate (s.items.length - s.handed.length) none
  /-- The futures come in the order in which they were done. -/
  order : s.handed <+: calls fs done (s.watch.done.drop done.length)
  finished : ∀ f ∈ s.handed, f ∈ s.watch.done
  often : ∀ f, s.handed.count f ≤ fs.count f
  /-- There is an item for each awaitable in the end, and never one more. -/
  length : s.items.length + s.todo.length = fs.length
  taken : s.taken ≤ s.items.length
  /-- Every awaitable gets its item once the callbacks on all futures have
  run, -/
  completes : (∀ f ∈ fs, f ∈ s.watch.done) → s.watch.ready = [] → s.todo = []
  /-- and with the first timeout the others have theirs. -/
  lapses : s.items.length ≠ s.handed.length → timeout = true ∧ s.todo = []

/-- Before the timer fires, `handed` is handed out. -/
structure Open (fs done : List F) (timeout : Bool) (handed : List F) (s : AsCompleted F) : Prop where
  done : ∃ later, s.watch.done = done ++ later ∧ handed ++ s.watch.ready = calls fs done later
  watches : s.watch.Watches fs
  items : s.items = handed.map some
  todo : s.todo.Perm (s.watch.ready ++ s.watch.added)
  given : (handed ++ s.todo).Perm fs
  taken : s.taken ≤ s.items.length
  timer : s.timer = true → timeout = true

/-- After it has fired. -/
structure Lapsed (fs done : List F) (timeout : Bool) (handed : List F) (s : AsCompleted F) : Prop where
  done : ∃ later, s.watch.done = done ++ later ∧ handed <+: calls fs done later
  items : s.items = handed.map some ++ List.replicate (fs.length - handed.length) none
  todo : s.todo = []
  given : ∃ rest, (handed ++ rest).Perm fs
  taken : s.taken ≤ s.items.length
  timer : s.timer = false
  timeout : timeout = true

variable {fs done handed : List F} {timeout : Bool} {s : AsCompleted F} {f : F}

theorem open_start (fs done : List F) (timeout : Bool) :
    Open fs done timeout [] { watch := .of done fs, todo := fs, timer := timeout && !fs.isEmpty } where
  done := ⟨[], by rw [Watch.of_eq, List.append_nil], by rw [Watch.of_eq, calls_nil, List.nil_append]⟩
  watches := Watch.watches_of done fs
  items := rfl
  todo := by
    rw [Watch.of_eq]
    have h := List.filter_append_perm (fun f => decide (f ∈ done)) fs
    simpa using h.symm
  given := .refl _
  taken := le_rfl
  timer h := (Bool.and_eq_true_iff.1 h).1

/-- A future that is done changes the scheduled calls alone. -/
theorem Open.complete (h : Open fs done timeout handed s) (f : F) :
    Open fs done timeout handed { s with watch := s.watch.complete f } where
  done := by
    obtain ⟨later, hd, hc⟩ := h.done
    unfold Watch.complete
    split
    · exact ⟨later, hd, hc⟩
    · next hf =>
      refine ⟨later ++ [f], by rw [hd, List.append_assoc], ?_⟩
      rw [← List.append_assoc, hc, calls_snoc, h.watches.scheduled hf]
  watches := h.watches.complete f
  items := h.items
  todo := by
    refine h.todo.trans ?_
    unfold Watch.complete
    split
    · exact .refl _
    · have hsplit := List.filter_append_perm (fun g => decide (g = f)) s.watch.added
      rw [List.append_assoc]
      refine List.Perm.append_left _ ?_
      simpa using hsplit.symm
  given := h.given
  taken := h.taken
  timer := h.timer

/-- The callback is on its list of futures. -/
theorem Open.callback (h : Open fs done timeout handed s) {rest : List F} (hr : s.watch.ready = f :: rest) :
    ∃ s', { s with watch := { s.watch with ready := rest } }.onCompletion f = .ok s' ∧
      Open fs done timeout (handed ++ [f]) s' := by
  have hf : f ∈ s.todo := h.todo.mem_iff.2 (by rw [hr]; exact List.mem_cons_self)
  refine ⟨_, by rw [onCompletion, if_neg (List.ne_nil_of_mem hf), if_pos hf], ?_⟩
  obtain ⟨later, hd, hc⟩ := h.done
  exact
    { done := ⟨later, hd, by rw [← hc, hr, List.append_assoc]; rfl⟩
      watches := h.watches
      items := by rw [h.items, List.map_append]; rfl
      todo := by
        have hp := h.todo
        rw [hr] at hp
        exact (hp.erase f).trans (by rw [List.cons_append, List.erase_cons_head])
      given := by
        refine List.Perm.trans ?_ h.given
        rw [List.append_assoc]
        exact List.Perm.append_left _ (List.perm_cons_erase hf).symm
      taken := h.taken.trans (by simp)
      timer := fun ht => h.timer (Bool.and_eq_true_iff.1 ht).1 }

theorem Open.expire (h : Open fs done timeout handed s) (ht : s.timer = true) :
    Lapsed fs done timeout handed s.onTimeout where
  done := by
    obtain ⟨later, hd, hc⟩ := h.done
    refine ⟨later, ?_, s.watch.ready, hc⟩
    rw [onTimeout, Watch.foldl_remove]
    exact hd
  items := by
    have hl := h.given.length_eq
    rw [List.length_append] at hl
    rw [onTimeout, h.items, ← hl, Nat.add_sub_cancel_left]
  todo := rfl
  given := ⟨s.todo, h.given⟩
  taken := h.taken.trans (by rw [onTimeout, List.length_append]; omega)
  timer := rfl
  timeout := h.timer ht

/-- Nothing is handed out any more. -/
theorem Lapsed.step (h : Lapsed fs done timeout handed s) (e : CompletionEvent F) :
    ∃ s', s.step e = .ok s' ∧ Lapsed fs done timeout handed s' := by
  cases e with
  | complete f =>
    refine ⟨_, rfl, ?_, h.items, h.todo, h.given, h.taken, h.timer, h.timeout⟩
    obtain ⟨later, hd, hc⟩ := h.done
    unfold Watch.complete
    split
    · exact ⟨later, hd, hc⟩
    · refine ⟨later ++ [f], by rw [hd, List.append_assoc], hc.trans ?_⟩
      rw [calls_snoc]
      exact List.prefix_append _ _
  | callback =>
    simp only [AsCompleted.step]
    split
    · exact ⟨s, rfl, h⟩
    · next f rest hr =>
      refine ⟨{ s with watch := { s.watch with ready := rest } }, ?_, h.done, h.items, h.todo, h.given, h.taken, h.timer,
        h.timeout⟩
      rw [onCompletion, if_pos h.todo]
  | expire => exact ⟨s, by rw [AsCompleted.step, h.timer]; rfl, h⟩
  | take =>
    refine ⟨_, rfl, ?_⟩
    split
    · next ht => exact ⟨h.done, h.items, h.todo, h.given, ht, h.timer, h.timeout⟩
    · exact h

theorem Open.step (h : Open fs done timeout handed s) (e : CompletionEvent F) :
    ∃ s' handed', s.step e = .ok s' ∧ (Open fs done timeout handed' s' ∨ Lapsed fs done timeout handed' s') := by
  cases e with
  | complete f => exact ⟨_, handed, rfl, .inl (h.complete f)⟩
  | callback =>
    simp only [AsCompleted.step]
    split
    · exact ⟨s, handed, rfl, .inl h⟩
    · next f rest hr =>
      obtain ⟨s', hs, ho⟩ := h.callback hr
      exact ⟨s', _, hs, .inl ho⟩
  | expire =>
    refine ⟨_, handed, rfl, ?_⟩
    split
    · next ht => exact .inr (h.expire ht)
    · exact .inl h
  | take =>
    refine ⟨_, handed, rfl, .inl ?_⟩
    split
    · next ht => exact ⟨h.done, h.watches, h.items, h.todo, h.given, ht, h.timer⟩
    · exact h

omit [DecidableEq F] in
theorem handed_of_items {n : Nat} (h : s.items = handed.map some ++ List.replicate n none) : s.handed = handed := by
  rw [AsCompleted.handed, h, List.filterMap_append, List.filterMap_map]
  simp

theorem Open.law (h : Open fs done timeout handed s) : Law fs done timeout s := by
  have hh : s.handed = handed := handed_of_items (n := 0) (h.items.trans (List.append_nil _).symm)
  have hlen : s.items.length = handed.length := by rw [h.items, List.length_map]
  obtain ⟨later, hd, hc⟩ := h.done
  have hlater : s.watch.done.drop done.length = later := by rw [hd, List.drop_left]
  have hcalls : handed <+: calls fs done later := ⟨_, hc⟩
  exact
    { items := by rw [hh, hlen, Nat.sub_self]; exact h.items.trans (List.append_nil _).symm
      order := by rw [hh, hlater]; exact hcalls
      finished := fun f hf => hd ▸ (mem_calls (hcalls.subset (hh ▸ hf))).2
      often := fun f => by
        rw [hh, ← h.given.count_eq f, List.count_append]
        omega
      length := by
        have hl := h.given.length_eq
        rwa [List.length_append, ← hlen] at hl
      taken := h.taken
      completes := fun hall hr => by
        have hadded : s.watch.added = [] := by
          rw [h.watches]
          exact List.filter_eq_nil_iff.2 fun f hf => by simpa using hall f hf
        have hp := h.todo
        rw [hr, hadded] at hp
        exact hp.eq_nil
      lapses := fun hne => absurd (by rw [hh, hlen]) hne }

theorem Lapsed.law (h : Lapsed fs done timeout handed s) : Law fs done timeout s := by
  have hh : s.handed = handed := handed_of_items h.items
  obtain ⟨rest, hp⟩ := h.given
  have hle : handed.length ≤ fs.length := by
    have hl := hp.length_eq
    rw [List.length_append] at hl
    omega
  have hlen : s.items.length = fs.length := by
    rw [h.items, List.length_append, List.length_map, List.length_replicate]
    omega
  obtain ⟨later, hd, hc⟩ := h.done
  have hlater : s.watch.done.drop done.length = later := by rw [hd, List.drop_left]
  exact
    { items := by rw [hh, hlen]; exact h.items
      order := by rw [hh, hlater]; exact hc
      finished := fun f hf => hd ▸ (mem_calls (hc.subset (hh ▸ hf))).2
      often := fun f => by
        rw [hh, ← hp.count_eq f, List.count_append]
        omega
      length := by rw [hlen, h.todo]; rfl
      taken := h.taken
      completes := fun _ _ => h.todo
      lapses := fun _ => ⟨h.timeout, h.todo⟩ }

theorem run_lawful (es : List (CompletionEvent F)) : ∀ {s : AsCompleted F} {handed : List F},
    Open fs done timeout handed s ∨ Lapsed fs done timeout handed s →
      ∃ s', es.foldlM AsCompleted.step s = .ok s' ∧ Law fs done timeout s' := by
  induction es with
  | nil => exact fun {s _} h => ⟨s, rfl, h.elim Open.law Lapsed.law⟩
  | cons e es ih =>
    intro s handed h
    obtain ⟨s', handed', hs, h'⟩ : ∃ s' handed', s.step e = .ok s' ∧
        (Open fs done timeout handed' s' ∨ Lapsed fs done timeout handed' s') := by
      rcases h with h | h
      · exact h.step e
      · obtain ⟨s', hs, h'⟩ := h.step e
        exact ⟨s', handed, hs, .inr h'⟩
    rw [List.foldlM_cons, hs]
    exact ih h'

end AsCompleted

inductive ReturnWhen | firstCompleted | firstException | allCompleted
deriving DecidableEq, Repr

/-- The values of `asyncio`'s constants. -/
def ReturnWhen.of : String → Option ReturnWhen
  | "FIRST_COMPLETED" => some firstCompleted
  | "FIRST_EXCEPTION" => some firstException
  | "ALL_COMPLETED" => some allCompleted
  | _ => none

/-- What `wait` is given: futures, or coroutines, which it refuses. -/
inductive Awaitable (F : Type)
  | future (f : F)
  | coroutine

def Awaitable.future? : Awaitable F → Option F
  | future f => some f
  | coroutine => none

inductive WaitPhase (F : Type)
  | waiting
  | returned (done pending : List F)
  /-- `CancelledError`, from `await waiter`. -/
  | cancelled

/-- The variables of `wait`. `released` says whether `waiter` is done, and
`cancelRequested` whether the task that awaits it has been cancelled. -/
structure Wait (F : Type) where
  fs : List F
  returnWhen : ReturnWhen
  watch : Watch F
  counter : Int
  timer : Bool
  released : Bool := false
  cancelRequested : Bool := false
  phase : WaitPhase F := .waiting

/-- `wait`, up to its await. -/
def Wait.of (done : List F) (timeout : Bool) (returnWhen : String) : Awaitables (Awaitable F) → Except Exc (Wait F)
  | .one typeName => .error (.typeError ("Expect an iterable of Tasks/Futures, not " ++ typeName))
  | .many l =>
    let fs := l.filterMap Awaitable.future?
    if l.isEmpty then .error (.valueError "Sequence of Tasks/Futures must not be empty.")
    else
      match ReturnWhen.of returnWhen with
      | none => .error (.valueError ("Invalid return_when value: " ++ returnWhen))
      | some returnWhen =>
        if l.any (·.future?.isNone) then .error (.typeError "Passing coroutines is forbidden, use tasks explicitly.")
        else .ok { fs, returnWhen, watch := .of done fs, counter := fs.length, timer := timeout }

/-- Whether this future's end is enough; `raises` says which futures end with
an exception other than a cancellation. -/
def ReturnWhen.enough (raises : F → Bool) (f : F) : ReturnWhen → Bool
  | firstCompleted => true
  | firstException => raises f
  | allCompleted => false

inductive WaitEvent (F : Type)
  | complete (f : F)
  | callback
  | expire
  /-- The task that awaits is cancelled. -/
  | cancel
  /-- It goes on once `waiter` is done. -/
  | resume

namespace Wait

/-- `_on_completion`. -/
def onCompletion (raises : F → Bool) (s : Wait F) (f : F) : Wait F :=
  let s := { s with counter := s.counter - 1 }
  if s.counter ≤ 0 ∨ s.returnWhen.enough raises f then { s with timer := false, released := true } else s

/-- The `finally` block, and what follows it. -/
def finish (s : Wait F) : Wait F :=
  { s with
    timer := false
    watch := s.fs.foldl Watch.remove s.watch
    phase :=
      if s.cancelRequested then .cancelled
      else .returned (s.fs.filter (· ∈ s.watch.done)) (s.fs.filter (· ∉ s.watch.done)) }

def isWaiting (s : Wait F) : Bool :=
  match s.phase with
  | .waiting => true
  | _ => false

def step (raises : F → Bool) (s : Wait F) : WaitEvent F → Wait F
  | .complete f => { s with watch := s.watch.complete f }
  | .callback =>
    match s.watch.ready with
    | [] => s
    | f :: fs => { s with watch := { s.watch with ready := fs } }.onCompletion raises f
  | .expire => if s.timer then { s with timer := false, released := true } else s
  | .cancel => if s.isWaiting then { s with cancelRequested := true, released := true } else s
  | .resume => if s.isWaiting && s.released then s.finish else s

def run (raises : F → Bool) (s : Wait F) (es : List (WaitEvent F)) : Wait F := es.foldl (step raises) s

/-- What is waited for has come. -/
def Met (raises : F → Bool) (fs done : List F) : ReturnWhen → Prop
  | .firstCompleted => ∃ f ∈ fs, f ∈ done
  | .firstException => (∃ f ∈ fs, f ∈ done ∧ raises f = true) ∨ ∀ f ∈ fs, f ∈ done
  | .allCompleted => ∀ f ∈ fs, f ∈ done

/-! ### Its law -/

/-- Why a wait may be released, after the events. -/
def Due (raises : F → Bool) (s : Wait F) (timeout : Bool) (es : List (WaitEvent F)) : Prop :=
  (timeout = true ∧ .expire ∈ es) ∨ Met raises s.fs s.watch.done s.returnWhen

/-- How far a wait is that began as `s₀`. -/
structure Law (raises : F → Bool) (timeout : Bool) (s₀ : Wait F) (es : List (WaitEvent F)) : Prop where
  /-- It is not released before it is due, unless its task is cancelled, -/
  due : (s₀.run raises es).phase = .waiting → (s₀.run raises es).released = true →
    (s₀.run raises es).cancelRequested = true ∨ (s₀.run raises es).Due raises timeout es
  /-- and it is once what it waits for has come and the callbacks have run. -/
  released : (s₀.run raises es).phase = .waiting → (s₀.run raises es).watch.ready = [] →
    Met raises (s₀.run raises es).fs (s₀.run raises es).watch.done (s₀.run raises es).returnWhen →
      (s₀.run raises es).released = true
  /-- It returned when it was due, its futures split in the order they were
  given. -/
  returned : ∀ d p, (s₀.run raises es).phase = .returned d p → ∃ es', es' ++ [.resume] <+: es ∧
    (s₀.run raises es').Due raises timeout es' ∧
      d = s₀.fs.filter (· ∈ (s₀.run raises es').watch.done) ∧ p = s₀.fs.filter (· ∉ (s₀.run raises es').watch.done)

variable {raises : F → Bool} {timeout : Bool} {es : List (WaitEvent F)} {s s₀ : Wait F} {fs : List F}

omit [DecidableEq F] in
theorem Met.mono {done done' : List F} {r : ReturnWhen} (h : Met raises fs done r) (hd : done ⊆ done') :
    Met raises fs done' r := by
  cases r with
  | firstCompleted => exact h.imp fun f hf => ⟨hf.1, hd hf.2⟩
  | firstException =>
    rcases h with ⟨f, hf, hfd, hr⟩ | h
    · exact .inl ⟨f, hf, hd hfd, hr⟩
    · exact .inr fun f hf => hd (h f hf)
  | allCompleted => exact fun f hf => hd (h f hf)

/-- While it waits. -/
structure Waits (raises : F → Bool) (timeout : Bool) (es : List (WaitEvent F)) (s : Wait F) : Prop where
  watches : s.watch.Watches s.fs
  ready : ∀ f ∈ s.watch.ready, f ∈ s.fs ∧ f ∈ s.watch.done
  counter : s.counter = s.watch.ready.length + s.watch.added.length
  timer : s.timer = true → timeout = true
  pending : s.released = false → 0 < s.counter ∧ (s.returnWhen = .firstCompleted → s.counter = s.fs.length) ∧
    (s.returnWhen = .firstException → ∀ f ∈ s.fs, f ∈ s.watch.done → raises f = true → f ∈ s.watch.ready)
  due : s.released = true → s.cancelRequested = true ∨ s.Due raises timeout es

theorem subset_complete (w : Watch F) (f : F) : w.done ⊆ (w.complete f).done := by
  unfold Watch.complete
  split
  · exact List.Subset.refl _
  · exact List.subset_append_left _ _

omit [DecidableEq F] in
theorem Due.later {s' : Wait F} {e : WaitEvent F} (h : s.Due raises timeout es) (hf : s'.fs = s.fs)
    (hr : s'.returnWhen = s.returnWhen) (hd : s.watch.done ⊆ s'.watch.done) : s'.Due raises timeout (es ++ [e]) := by
  rcases h with ⟨ht, he⟩ | h
  · exact .inl ⟨ht, List.mem_append_left _ he⟩
  · refine .inr ?_
    rw [hf, hr]
    exact h.mono hd

theorem Waits.complete (h : Waits raises timeout es s) (f : F) :
    Waits raises timeout (es ++ [.complete f]) { s with watch := s.watch.complete f } := by
  have hlen : (s.watch.complete f).ready.length + (s.watch.complete f).added.length =
      s.watch.ready.length + s.watch.added.length := by
    unfold Watch.complete
    split
    · rfl
    · have hp := (List.filter_append_perm (fun g => decide (g = f)) s.watch.added).length_eq
      simp only [List.length_append, ne_eq, decide_not] at hp ⊢
      omega
  exact
    { watches := h.watches.complete f
      ready := by
        intro g hg
        unfold Watch.complete at hg ⊢
        split at hg
        · next hf => rw [if_pos hf]; exact h.ready g hg
        · next hf =>
          rw [if_neg hf]
          rcases List.mem_append.1 hg with hg | hg
          · exact ⟨(h.ready g hg).1, List.mem_append_left _ (h.ready g hg).2⟩
          · rw [h.watches.scheduled hf] at hg
            obtain ⟨hg, he⟩ := List.mem_filter.1 hg
            exact ⟨hg, List.mem_append_right _ (by simpa using he)⟩
      counter := by rw [h.counter]; exact_mod_cast hlen.symm
      timer := h.timer
      pending := by
        intro hr
        obtain ⟨hpos, hfirst, hexc⟩ := h.pending hr
        refine ⟨hpos, hfirst, fun hw g hg hd hr => ?_⟩
        unfold Watch.complete at hd ⊢
        split at hd
        · next hf => rw [if_pos hf]; exact hexc hw g hg hd hr
        · next hf =>
          rw [if_neg hf]
          rcases List.mem_append.1 hd with hd | hd
          · exact List.mem_append_left _ (hexc hw g hg hd hr)
          · refine List.mem_append_right _ ?_
            rw [h.watches.scheduled hf]
            exact List.mem_filter.2 ⟨hg, by simpa using hd⟩
      due := fun hr => (h.due hr).imp_right fun hd => hd.later rfl rfl (subset_complete _ f) }

/-- The callback that is enough, or the last one, releases the wait when it
is due. -/
theorem Waits.met (h : Waits raises timeout es s) {f : F} {rest : List F} (hr : s.watch.ready = f :: rest)
    (hc : s.counter - 1 ≤ 0 ∨ s.returnWhen.enough raises f = true) : Met raises s.fs s.watch.done s.returnWhen := by
  obtain ⟨hf, hd⟩ := h.ready f (hr ▸ List.mem_cons_self)
  rcases hc with hc | hc
  · have hall : ∀ g ∈ s.fs, g ∈ s.watch.done := by
      have hcount := h.counter
      rw [hr, List.length_cons] at hcount
      have hadded : s.watch.added = [] := List.length_eq_zero_iff.1 (by omega)
      intro g hg
      by_contra hn
      have hmem : g ∈ s.watch.added := by
        rw [h.watches]
        exact List.mem_filter.2 ⟨hg, by simpa using hn⟩
      exact absurd (hadded ▸ hmem) List.not_mem_nil
    cases s.returnWhen with
    | firstCompleted => exact ⟨f, hf, hd⟩
    | firstException => exact .inr hall
    | allCompleted => exact hall
  · cases hw : s.returnWhen with
    | firstCompleted => exact ⟨f, hf, hd⟩
    | firstException =>
      rw [hw] at hc
      exact .inl ⟨f, hf, hd, hc⟩
    | allCompleted =>
      rw [hw] at hc
      cases hc

theorem Waits.callback (h : Waits raises timeout es s) {f : F} {rest : List F} (hr : s.watch.ready = f :: rest) :
    Waits raises timeout (es ++ [.callback]) ({ s with watch := { s.watch with ready := rest } }.onCompletion raises f) := by
  have hcount : s.counter - 1 = rest.length + s.watch.added.length := by
    have hc := h.counter
    rw [hr, List.length_cons] at hc
    omega
  have hready : ∀ g ∈ rest, g ∈ s.fs ∧ g ∈ s.watch.done := fun g hg => h.ready g (hr ▸ List.mem_cons_of_mem _ hg)
  simp only [onCompletion]
  split
  · next hc =>
    exact
      { watches := h.watches
        ready := hready
        counter := hcount
        timer := fun ht => by cases ht
        pending := fun hn => by cases hn
        due := fun _ => .inr (.inr (h.met hr hc)) }
  · next hc =>
    rw [not_or] at hc
    exact
      { watches := h.watches
        ready := hready
        counter := hcount
        timer := h.timer
        pending := by
          intro hn
          obtain ⟨-, -, hexc⟩ := h.pending hn
          refine ⟨not_le.1 hc.1, fun hw => ?_, fun hw g hg hd hraises => ?_⟩
          · exact absurd (by rw [hw]; rfl) hc.2
          · have hmem := hexc hw g hg hd hraises
            rw [hr] at hmem
            rcases List.mem_cons.1 hmem with rfl | hmem
            · exact absurd (by rw [hw]; exact hraises) hc.2
            · exact hmem
        due := fun hrel => (h.due hrel).imp_right fun hd => hd.later rfl rfl (List.Subset.refl _) }

theorem Waits.step (h : Waits raises timeout es s) (hs : s.phase = .waiting) (e : WaitEvent F)
    (hs' : (s.step raises e).phase = .waiting) : Waits raises timeout (es ++ [e]) (s.step raises e) := by
  have hlater : ∀ {s' : Wait F} {e : WaitEvent F}, s'.fs = s.fs → s'.returnWhen = s.returnWhen → s'.watch = s.watch →
      s'.counter = s.counter → (s'.timer = true → timeout = true) →
      (s'.released = false → s.released = false) →
      (s'.released = true → s'.cancelRequested = true ∨ s'.Due raises timeout (es ++ [e])) →
      Waits raises timeout (es ++ [e]) s' := by
    intro s' e hf hr hw hc ht hn hd
    exact
      { watches := by rw [hw, hf]; exact h.watches
        ready := by rw [hw, hf]; exact h.ready
        counter := by rw [hc, hw]; exact h.counter
        timer := ht
        pending := fun hrel => by rw [hc, hf, hr, hw]; exact h.pending (hn hrel)
        due := hd }
  have hdue : s.released = true → s.cancelRequested = true ∨ s.Due raises timeout (es ++ [e]) :=
    fun hrel => (h.due hrel).imp_right fun hd => hd.later rfl rfl (List.Subset.refl _)
  have hw : s.isWaiting = true := by rw [isWaiting, hs]
  cases e with
  | complete f => exact h.complete f
  | callback =>
    simp only [Wait.step] at hs' ⊢
    split
    · exact hlater rfl rfl rfl rfl h.timer id hdue
    · next f rest hr => exact h.callback hr
  | expire =>
    simp only [Wait.step]
    split
    · next ht =>
      refine hlater rfl rfl rfl rfl (fun h => by cases h) (fun h => by cases h) fun _ => .inr (.inl ⟨h.timer ht, ?_⟩)
      exact List.mem_append_right _ (List.mem_singleton_self _)
    · exact hlater rfl rfl rfl rfl h.timer id hdue
  | cancel =>
    simp only [Wait.step, hw, if_true]
    exact hlater rfl rfl rfl rfl h.timer (fun h => by cases h) fun _ => .inl rfl
  | resume =>
    simp only [Wait.step, hw, Bool.true_and] at hs' ⊢
    split at hs'
    · simp only [finish] at hs'
      split at hs' <;> cases hs'
    · next hrel =>
      rw [if_neg hrel]
      exact hlater rfl rfl rfl rfl h.timer id hdue

/-- A wait that is over stays as it ended. -/
theorem phase_step (hs : s.isWaiting = false) (e : WaitEvent F) : (s.step raises e).phase = s.phase := by
  cases e with
  | complete f => rfl
  | callback =>
    simp only [step]
    split
    · rfl
    · simp only [onCompletion]
      split <;> rfl
  | expire =>
    simp only [step]
    split <;> rfl
  | cancel => simp only [step, hs, Bool.false_eq_true, if_false]
  | resume => simp only [step, hs, Bool.false_and, Bool.false_eq_true, if_false]

omit [DecidableEq F] in
theorem isWaiting_iff : s.isWaiting = true ↔ s.phase = .waiting := by
  unfold isWaiting
  cases s.phase <;> simp

/-- The step with which it returns. -/
theorem step_returned (hw : s.isWaiting = true) {e : WaitEvent F} {d p : List F}
    (h : (s.step raises e).phase = .returned d p) : e = .resume ∧ s.released = true ∧ s.cancelRequested = false ∧
      d = s.fs.filter (· ∈ s.watch.done) ∧ p = s.fs.filter (· ∉ s.watch.done) := by
  have hstill : ∀ {s' : Wait F}, s'.phase = s.phase → s'.phase ≠ .returned d p := by
    intro s' hs hr
    rw [hs, isWaiting_iff.1 hw] at hr
    cases hr
  cases e with
  | complete f => exact absurd h (hstill rfl)
  | callback =>
    simp only [step] at h
    split at h
    · exact absurd h (hstill rfl)
    · simp only [onCompletion] at h
      split at h <;> exact absurd h (hstill rfl)
  | expire =>
    simp only [step] at h
    split at h <;> exact absurd h (hstill rfl)
  | cancel =>
    simp only [step] at h
    split at h <;> exact absurd h (hstill rfl)
  | resume =>
    simp only [step, hw, Bool.true_and] at h
    split at h
    · next hrel =>
      simp only [finish] at h
      split at h
      · cases h
      · next hc =>
        cases h
        exact ⟨rfl, hrel, by simpa using hc, rfl, rfl⟩
    · exact absurd h (hstill rfl)

theorem run_snoc (s : Wait F) (es : List (WaitEvent F)) (e : WaitEvent F) :
    s.run raises (es ++ [e]) = (s.run raises es).step raises e := by
  rw [run, List.foldl_append]
  rfl

@[simp] theorem fs_step (s : Wait F) (e : WaitEvent F) : (s.step raises e).fs = s.fs := by
  cases e with
  | complete f => rfl
  | callback =>
    simp only [step]
    split
    · rfl
    · simp only [onCompletion]
      split <;> rfl
  | expire | cancel | resume =>
    simp only [step]
    split <;> rfl

theorem fs_run (s : Wait F) (es : List (WaitEvent F)) : (s.run raises es).fs = s.fs := by
  induction es using PastTime.snoc_induction with
  | nil => rfl
  | snoc es e ih => rw [run_snoc, fs_step, ih]

/-- Once what is waited for has come and the callbacks have run, the wait is
released. -/
theorem Waits.released (h : Waits raises timeout es s) (hr : s.watch.ready = [])
    (hm : Met raises s.fs s.watch.done s.returnWhen) : s.released = true := by
  by_contra hn
  obtain ⟨hpos, hfirst, hexc⟩ := h.pending (by simpa using hn)
  have hcount : s.counter = s.watch.added.length := by simpa [hr] using h.counter
  have hadded : (∀ f ∈ s.fs, f ∈ s.watch.done) → False := by
    intro hall
    have hnil : s.watch.added = [] := by
      rw [h.watches]
      exact List.filter_eq_nil_iff.2 fun f hf => by simpa using hall f hf
    rw [hcount, hnil] at hpos
    exact absurd hpos (lt_irrefl _)
  cases hw : s.returnWhen with
  | firstCompleted =>
    rw [hw] at hm
    obtain ⟨f, hf, hd⟩ := hm
    have hlen := hcount.symm.trans (hfirst hw)
    rw [h.watches, Nat.cast_inj, List.length_filter_eq_length_iff] at hlen
    exact absurd hd (by simpa using hlen f hf)
  | firstException =>
    rw [hw] at hm
    rcases hm with ⟨f, hf, hd, hraises⟩ | hall
    · exact absurd (hr ▸ hexc hw f hf hd hraises) List.not_mem_nil
    · exact hadded hall
  | allCompleted =>
    rw [hw] at hm
    exact hadded hm

theorem waits_start {done : List F} {returnWhen : String} {a : Awaitables (Awaitable F)}
    (h : Wait.of done timeout returnWhen a = .ok s₀) : s₀.phase = .waiting ∧ Waits raises timeout [] s₀ := by
  cases a with
  | one t => cases h
  | many l =>
    simp only [Wait.of] at h
    split at h
    · cases h
    · next hl =>
      split at h
      · cases h
      · next r hr =>
        split at h
        · cases h
        · next hall =>
          cases h
          refine ⟨rfl, Watch.watches_of _ _, ?_, ?_, id, fun _ => ⟨?_, fun _ => rfl, ?_⟩, fun h => by cases h⟩
          · intro f hf
            rw [Watch.of_eq] at hf ⊢
            exact ⟨(List.mem_filter.1 hf).1, by simpa using (List.mem_filter.1 hf).2⟩
          · rw [Watch.of_eq]
            have hp := (List.filter_append_perm (fun f => decide (f ∈ done)) (l.filterMap Awaitable.future?)).length_eq
            simp only [List.length_append, decide_not] at hp ⊢
            exact_mod_cast hp.symm
          · cases l with
            | nil => exact absurd rfl hl
            | cons a l =>
              cases a with
              | future f => simp [Awaitable.future?]
              | coroutine => exact absurd (by simp [Awaitable.future?]) hall
          · intro _ f hf hd _
            rw [Watch.of_eq] at hd ⊢
            exact List.mem_filter.2 ⟨hf, by simpa using hd⟩

theorem waits_run (h₀ : Waits raises timeout [] s₀) (es : List (WaitEvent F)) :
    (s₀.run raises es).phase = .waiting → Waits raises timeout es (s₀.run raises es) := by
  induction es using PastTime.snoc_induction with
  | nil => exact fun _ => h₀
  | snoc es e ih =>
    intro hp
    rw [run_snoc] at hp ⊢
    have hw : (s₀.run raises es).phase = .waiting := by
      rw [← isWaiting_iff]
      by_contra hn
      rw [Bool.not_eq_true] at hn
      rw [phase_step hn] at hp
      exact absurd (isWaiting_iff.2 hp) (by simp [hn])
    exact (ih hw).step hw e hp

theorem returned_run (hs : s₀.phase = .waiting) (h₀ : Waits raises timeout [] s₀) (es : List (WaitEvent F)) {d p : List F} :
    (s₀.run raises es).phase = .returned d p → ∃ es', es' ++ [.resume] <+: es ∧
      (s₀.run raises es').Due raises timeout es' ∧
        d = s₀.fs.filter (· ∈ (s₀.run raises es').watch.done) ∧
          p = s₀.fs.filter (· ∉ (s₀.run raises es').watch.done) := by
  induction es using PastTime.snoc_induction with
  | nil =>
    intro h
    rw [run, List.foldl_nil, hs] at h
    cases h
  | snoc es e ih =>
    intro h
    rw [run_snoc] at h
    cases hw : (s₀.run raises es).isWaiting with
    | false =>
      rw [phase_step hw] at h
      obtain ⟨es', hpre, hrest⟩ := ih h
      exact ⟨es', hpre.trans (List.prefix_append _ _), hrest⟩
    | true =>
      obtain ⟨rfl, hrel, hcancel, hd, hp⟩ := step_returned hw h
      rw [fs_run] at hd hp
      refine ⟨es, List.prefix_refl _, ?_, hd, hp⟩
      refine ((waits_run h₀ es (isWaiting_iff.1 hw)).due hrel).resolve_left ?_
      rw [hcancel]
      exact Bool.false_ne_true

end Wait

end Dbosify
