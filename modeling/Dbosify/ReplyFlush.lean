/-
The flush of the outbox (`_flush_outbox`): the replies are encoded and
published one after another, once the handlers that made them are gone.

The outbox is emptied before the first of them, and nothing catches what an
encoding raises: it takes the replies behind it along, and ends the run
(`flushOutbox_isolates_iff`).
-/
import Dbosify.UpdateFrames

namespace Dbosify

/-! ## What is published -/

/-- A reply as it is published. -/
structure PublishedReply where
  key : EventKey
  status : ReplyStatus
  body : Payload ⊕ FailureEnvelope

def Op.reply : Op → Option PublishedReply
  | .setEvent key (.reply st body) => some ⟨key, st, body⟩
  | _ => none

def actReply : Coop.Act Op → Option PublishedReply
  | .step o => o.reply
  | _ => none

/-- A value the converter can encode. A failure is encoded already. -/
def Reply.Encodes (env : Env) (r : Reply) : Prop := ∀ v, r.body = .inl v → ∃ p, encodeValue env.converter v = .ok p

/-- What the sender of a request is to get for this entry of the outbox: the
reply itself, or a failure where its value cannot be encoded. -/
def PublishedReply.Answers (env : Env) (e : EventKey × Reply) (p : PublishedReply) : Prop :=
  p.key = e.1 ∧
    match e.2.body with
    | .inr failure => p.status = e.2.status ∧ p.body = .inr failure
    | .inl v =>
      match encodeValue env.converter v with
      | .ok payload => p.status = e.2.status ∧ p.body = .inl payload
      | .error _ => p.status = .failed ∧ ∃ failure, p.body = .inr failure

namespace Interp

variable {env : Env} {s s' : Interp}

/-- The replies published so far, in order, with what they say. -/
def replies (s : Interp) : List PublishedReply := s.acts.filterMap actReply

/-- The flush isolates the replies: the run goes on, and there is one answer
for each of them. -/
def Isolates (env : Env) (s : Interp) : Prop :=
  ∃ s' l, s.flushOutbox env = .ok s' ∧ List.Forall₂ (PublishedReply.Answers env) s.outbox l ∧
    s'.replies.Perm (s.replies ++ l)

theorem replies_emit (s : Interp) (a : Coop.Act Op) : (s.emit a).replies = s.replies ++ (actReply a).toList := by
  rw [replies, acts_emit, List.filterMap_append]
  rfl

/-! ## The loop -/

/-- A reply that can be encoded is published. -/
theorem flushReply_ok {e : EventKey × Reply} (h : e.2.Encodes env) :
    ∃ s' p, s.flushReply env e = .ok s' ∧ p.Answers env e ∧ s'.replies = s.replies ++ [p] := by
  obtain ⟨key, status, body⟩ := e
  unfold flushReply
  cases body with
  | inr f =>
    refine ⟨_, ⟨key, status, .inr f⟩, rfl, ⟨rfl, rfl, rfl⟩, ?_⟩
    exact replies_emit s (.step (.setEvent key (.reply status (.inr f))))
  | inl v =>
    obtain ⟨p, hp⟩ := h v rfl
    simp only [hp, lift_ok, ok_bind]
    refine ⟨_, ⟨key, status, .inl p⟩, rfl, ?_, ?_⟩
    · simp only [PublishedReply.Answers, hp, and_self]
    · have hawait : s.await.replies = s.replies := by
        rw [await, replies_emit]
        exact List.append_nil _
      rw [← hawait]
      exact replies_emit s.await (.step (.setEvent key (.reply status (.inl p))))

/-- One that cannot raises. -/
theorem flushReply_error {e : EventKey × Reply} (h : ¬ e.2.Encodes env) : ∃ r, s.flushReply env e = .error r := by
  obtain ⟨key, status, body⟩ := e
  unfold flushReply
  cases body with
  | inr f => exact absurd (fun v hv => by cases hv) h
  | inl v =>
    dsimp only
    cases hp : encodeValue env.converter v with
    | ok p =>
      refine absurd (fun v' hv => ?_) h
      cases hv
      exact ⟨p, hp⟩
    | error e => exact ⟨_, rfl⟩

/-- Replies that can all be encoded are published one after another. -/
theorem flushReplies_ok (l : List (EventKey × Reply)) (h : ∀ e ∈ l, e.2.Encodes env) :
    ∀ s : Interp, ∃ s' ps, l.foldlM (flushReply env) s = .ok s' ∧ List.Forall₂ (PublishedReply.Answers env) l ps ∧
      s'.replies = s.replies ++ ps := by
  induction l with
  | nil => exact fun s => ⟨s, [], rfl, .nil, (List.append_nil _).symm⟩
  | cons e l ih =>
    intro s
    obtain ⟨s₁, p, h₁, hp, hr₁⟩ := flushReply_ok (s := s) (h e (.head _))
    obtain ⟨s₂, ps, h₂, hps, hr₂⟩ := ih (fun e he => h e (.tail _ he)) s₁
    refine ⟨s₂, p :: ps, ?_, .cons hp hps, ?_⟩
    · rw [List.foldlM_cons, h₁, ok_bind, h₂]
    · rw [hr₂, hr₁, List.append_assoc, List.singleton_append]

/-- Wherever the first one stands that cannot, the loop ends there. -/
theorem flushReplies_error {l : List (EventKey × Reply)} (h : ∃ e ∈ l, ¬ e.2.Encodes env) :
    ∀ s : Interp, ∃ r, l.foldlM (flushReply env) s = .error r := by
  induction l with
  | nil => obtain ⟨e, he, -⟩ := h; cases he
  | cons e l ih =>
    intro s
    rw [List.foldlM_cons]
    by_cases he : e.2.Encodes env
    · obtain ⟨s₁, p, h₁, -⟩ := flushReply_ok (s := s) he
      obtain ⟨e', hmem, he'⟩ := h
      rcases List.mem_cons.1 hmem with rfl | hmem
      · exact absurd he he'
      · rw [h₁, ok_bind]
        exact ih ⟨e', hmem, he'⟩ s₁
    · obtain ⟨r, hr⟩ := flushReply_error (s := s) he
      exact ⟨r, by rw [hr]; rfl⟩

/-- **The flush isolates the replies exactly when all of them can be
encoded.** -/
theorem flushOutbox_isolates_iff (env : Env) (s : Interp) : s.Isolates env ↔ ∀ e ∈ s.outbox, e.2.Encodes env := by
  constructor
  · intro h e he
    obtain ⟨s', l, hok, -⟩ := h
    by_contra hne
    obtain ⟨r, hr⟩ := flushReplies_error ⟨e, he, hne⟩ { s with outbox := [] }
    rw [flushOutbox, hr] at hok
    cases hok
  · intro h
    obtain ⟨s', l, hok, hanswers, hreplies⟩ := flushReplies_ok s.outbox h { s with outbox := [] }
    exact ⟨s', l, hok, hanswers, .of_eq hreplies⟩

end Interp

/-- A converter that refuses one value, a set say. -/
def Converter.setless : Converter :=
  { Converter.lenient with
    encode := fun
      | [.obj "set"] => .error "cannot encode"
      | vs => .ok (vs.map fun _ => ⟨"null"⟩) }

/-- Two queries answered in one batch, the first of them with a set. -/
def twoAnswers : Interp :=
  { Interp.start 0 with
    outbox := [(.queryResult "1", ⟨.completed, .inl (.obj "set")⟩), (.queryResult "2", ⟨.completed, .inl .none⟩)] }

/-- Neither sender hears of it, and the run ends. -/
theorem twoAnswers_lost : ¬ twoAnswers.Isolates { converter := .setless } ∧
    (∃ p, encodeValue Converter.setless .none = .ok p) ∧
    ∃ r, twoAnswers.flushOutbox { converter := .setless } = .error r ∧ r.state.replies = twoAnswers.replies ∧
      r.state.outbox = [] := by
  have herror : ∃ r, twoAnswers.flushOutbox { converter := .setless } = .error r ∧
      r.state.replies = twoAnswers.replies ∧ r.state.outbox = [] := by
    have hflush : twoAnswers.flushOutbox { converter := .setless } =
        raise { twoAnswers with outbox := [] }.await (.conversionError "cannot encode") := rfl
    exact ⟨_, hflush, rfl, rfl⟩
  refine ⟨fun h => ?_, ⟨_, rfl⟩, herror⟩
  obtain ⟨s', l, hok, -⟩ := h
  obtain ⟨r, hr, -⟩ := herror
  rw [hr] at hok
  cases hok

end Dbosify
