/-
The inbox envelopes, and the event keys the replies flow back under.

An envelope is a dict with a `kind`; each kind is a constructor with the keys
`inbox.py` builds it with. `sentAt` is `.get("sent_at")`, the sender's clock.
-/
import Dbosify.Failure

namespace Dbosify

/-- `inbox.signal_envelope`. -/
structure SignalEnvelope where
  name : String
  args : List Payload
  headers : Headers := []
  sentAt : Option Seconds := none
deriving DecidableEq

/-- `inbox.update_envelope`. -/
structure UpdateEnvelope where
  name : String
  args : List Payload
  updateId : String
  headers : Headers := []
  sentAt : Option Seconds := none
deriving DecidableEq

/-- `inbox.query_envelope`. -/
structure QueryEnvelope where
  name : String
  args : List Payload
  requestId : String
  headers : Headers := []
  sentAt : Option Seconds := none
deriving DecidableEq

/-- How an external completer ends a parked activity
(`inbox.activity_result_envelope`). -/
inductive Completion
  | cancelled
  | ok (result : Payload)
  | failed (failure : FailureEnvelope)

/-- What `recv` hands over: an envelope of a known kind, a dict of an unknown
one, or something that is no envelope at all. -/
inductive Message
  | signal (e : SignalEnvelope)
  | update (e : UpdateEnvelope)
  | query (e : QueryEnvelope)
  | cancel (reason : String) (sentAt : Option Seconds)
  | activityResult (activityId : String) (completion : Completion) (sentAt : Option Seconds)
  | activityHeartbeat (activityId : String) (details : List Payload) (sentAt : Option Seconds)
  | rehydrateStop (sentAt : Option Seconds)
  | unknown (kind : String) (sentAt : Option Seconds)
  | malformed

namespace Message

/-- `envelope.get("sent_at")`. -/
def sentAt : Message → Option Seconds
  | signal e => e.sentAt
  | update e => e.sentAt
  | query e => e.sentAt
  | cancel _ t | activityResult _ _ t | activityHeartbeat _ _ t | rehydrateStop t | unknown _ t => t
  | malformed => none

/-- Envelopes addressed to this run's own activities: they die with the run. -/
def runScoped : Message → Bool
  | activityResult _ _ _ | activityHeartbeat _ _ _ => true
  | _ => false

def isCancel : Message → Bool
  | cancel _ _ => true
  | _ => false

end Message

/-! ## Event keys -/

/-- The keys the program sets events under. -/
inductive EventKey
  | updateResult (updateId : String)
  | updateAcceptance (updateId : String)
  | queryResult (requestId : String)
  | asyncActivityGone (activityId : String)
  | activityCancel (activityId : String)
  | children
deriving DecidableEq, Repr

/-- The string a key is. -/
def EventKey.render : EventKey → String
  | updateResult u => "__dbosify_upd_" ++ u
  | updateAcceptance u => "__dbosify_upd_" ++ u ++ "_accepted"
  | queryResult r => "__dbosify_q_" ++ r
  | asyncActivityGone a => "__dbosify_act_" ++ a ++ "_gone"
  | activityCancel a => "__dbosify_act_" ++ a ++ "_cancel"
  | children => "__dbosify_children"

end Dbosify
