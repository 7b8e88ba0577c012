import Oac.Client.SubscriptionDb

/-!
# Requests of the client

Requests and the pool of those that wait for a reply. A request is told apart by its
number, which stands for its promise.
-/
namespace Oac.Client

structure SubscriptionRequest where
  id : Nat
  varId : VariableId
  handler : Nat
  deriving DecidableEq

structure UnsubscriptionRequest where
  id : Nat
  masterSubsId : SubscriptionId
  virtualSubsId : SubscriptionId
  deriving DecidableEq

structure VariableUpdateRequest where
  id : Nat
  virtualSubsId : SubscriptionId
  varValue : VariableValue
  deriving DecidableEq

/-- What a promise is set to: a virtual subscription id, nothing, or an exception. -/
inductive Resolution where
  | subscribed (virtualSubsId : SubscriptionId)
  | done
  | failed (error : Exception)
  deriving DecidableEq

/-- A `request_pool`. The lists of each map stand one after another. -/
structure RequestPool where
  subsReqs : List SubscriptionRequest
  unsubsReqs : List UnsubscriptionRequest

namespace RequestPool

def empty : RequestPool := ⟨[], []⟩

def insertSubscription (pool : RequestPool) (req : SubscriptionRequest) : RequestPool :=
  { pool with subsReqs := pool.subsReqs ++ [req] }
def insertUnsubscription (pool : RequestPool) (req : UnsubscriptionRequest) : RequestPool :=
  { pool with unsubsReqs := pool.unsubsReqs ++ [req] }

/-- The requests that wait for a reply about a variable. -/
def subscriptionRequests (pool : RequestPool) (varId : VariableId) : List SubscriptionRequest :=
  pool.subsReqs.filter fun req => req.varId = varId
/-- The requests that wait for a reply about a master subscription. -/
def unsubscriptionRequests (pool : RequestPool) (subsId : SubscriptionId) : List UnsubscriptionRequest :=
  pool.unsubsReqs.filter fun req => req.masterSubsId = subsId

/-- `pop_subscription_requests`, which leaves an empty list. -/
def popSubscriptionRequests (pool : RequestPool) (varId : VariableId) : List SubscriptionRequest × RequestPool :=
  (pool.subscriptionRequests varId, { pool with subsReqs := pool.subsReqs.filter fun req => req.varId ≠ varId })
/-- `pop_unsubscription_requests`, which leaves an empty list. -/
def popUnsubscriptionRequests (pool : RequestPool) (subsId : SubscriptionId) : List UnsubscriptionRequest × RequestPool :=
  (pool.unsubscriptionRequests subsId, { pool with unsubsReqs := pool.unsubsReqs.filter fun req => req.masterSubsId ≠ subsId })

theorem popSubscriptionRequests_none (pool : RequestPool) (varId : VariableId) :
    (pool.popSubscriptionRequests varId).2.subscriptionRequests varId = [] := by
  rw [subscriptionRequests, List.filter_eq_nil_iff]
  intro req among
  simpa using (List.mem_filter.mp among).2

/-- The numbers of the requests. -/
def ids (pool : RequestPool) : List Nat :=
  pool.subsReqs.map SubscriptionRequest.id ++ pool.unsubsReqs.map UnsubscriptionRequest.id

/-- `propagate_error`: what each promise is set to. -/
def propagateError (pool : RequestPool) (e : Exception) : List (Nat × Resolution) :=
  pool.ids.map fun id => (id, .failed e)

end RequestPool
end Oac.Client
