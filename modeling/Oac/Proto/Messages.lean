import Oac.Errors

/-!
# Messages
-/
namespace Oac.Proto

/-- `to_string` of a status. -/
def SubscriptionStatus.toStr : SubscriptionStatus → Except Exception Str
  | subscribed => .ok (text "subscribed")
  | unsubscribed => .ok (text "unsubscribed")
  | noSuchVar => .ok (text "no such var")
  | noSuchSubscription => .ok (text "no such subscription")
  | varAlreadySubscribed => .ok (text "var already subscribed")
  | unknown => .ok (text "unknown")
  | undeclared code _ => .error (.statusOutOfRange code)

structure BeginSessionMessage where
  pname : Str
  protoVer : UInt16
  deriving DecidableEq

structure EndSessionMessage where
  cause : Str
  deriving DecidableEq

structure SubscriptionRequestMessage where
  varGrp : Str
  varName : Str
  deriving DecidableEq

structure SubscriptionReplyMessage where
  st : SubscriptionStatus
  varGrp : Str
  varName : Str
  subsId : SubscriptionId
  cause : Str
  deriving DecidableEq

structure UnsubscriptionRequestMessage where
  subsId : SubscriptionId
  deriving DecidableEq

structure UnsubscriptionReplyMessage where
  st : SubscriptionStatus
  subsId : SubscriptionId
  cause : Str
  deriving DecidableEq

structure VarUpdateMessage where
  subsId : SubscriptionId
  varValue : VariableValue
  deriving DecidableEq

inductive Message where
  | beginSession (msg : BeginSessionMessage)
  | endSession (msg : EndSessionMessage)
  | subscriptionReq (msg : SubscriptionRequestMessage)
  | subscriptionRep (msg : SubscriptionReplyMessage)
  | unsubscriptionReq (msg : UnsubscriptionRequestMessage)
  | unsubscriptionRep (msg : UnsubscriptionReplyMessage)
  | varUpdate (msg : VarUpdateMessage)
  deriving DecidableEq

/-- `get_message_type`. -/
def Message.getMessageType : Message → MessageType
  | beginSession _ => .beginSession
  | endSession _ => .endSession
  | subscriptionReq _ => .subscriptionReq
  | subscriptionRep _ => .subscriptionRep
  | unsubscriptionReq _ => .unsubscriptionReq
  | unsubscriptionRep _ => .unsubscriptionRep
  | varUpdate _ => .varUpdate

/-- `variable_value::get_type`. -/
def variableType : VariableValue → VariableType
  | .bool _ => .boolean
  | .byte _ => .byte
  | .word _ => .word
  | .dword _ => .dword
  | .float _ => .float

end Oac.Proto
