import Mathlib.Tactic.Common

/-!
# Enumerations of the protocol
-/
namespace Oac.Proto

/-- `FLIGHTVARS_PROTOCOL_VERSION`. -/
def flightvarsProtocolVersion : UInt16 := 0x0100

inductive MessageType where
  | beginSession
  | endSession
  | subscriptionReq
  | subscriptionRep
  | unsubscriptionReq
  | unsubscriptionRep
  | varUpdate
  deriving DecidableEq

namespace MessageType

/-- The value of the enumerator. -/
def code : MessageType → Int
  | beginSession => 0
  | endSession => 1
  | subscriptionReq => 2
  | subscriptionRep => 3
  | unsubscriptionReq => 4
  | unsubscriptionRep => 5
  | varUpdate => 6

/-- The enumerator of a value that was converted to the enumeration, if it has one. -/
def ofCode (code : Int) : Option MessageType :=
  if code = 0 then some beginSession
  else if code = 1 then some endSession
  else if code = 2 then some subscriptionReq
  else if code = 3 then some subscriptionRep
  else if code = 4 then some unsubscriptionReq
  else if code = 5 then some unsubscriptionRep
  else if code = 6 then some varUpdate
  else none

@[simp] theorem ofCode_code (t : MessageType) : ofCode t.code = some t := by
  cases t <;> rfl

theorem code_of_ofCode {code : Int} {t : MessageType} (known : ofCode code = some t) : code = t.code := by
  unfold ofCode at known
  split_ifs at known <;>
  · cases known
    assumption

end MessageType

/-- The status of a subscription. A byte read from the wire may be the code of no
    enumerator. -/
inductive SubscriptionStatus where
  | subscribed
  | unsubscribed
  | noSuchVar
  | noSuchSubscription
  | varAlreadySubscribed
  | unknown
  | undeclared (code : UInt8) (outside : 6 ≤ code)
  deriving DecidableEq

namespace SubscriptionStatus

def code : SubscriptionStatus → UInt8
  | subscribed => 0
  | unsubscribed => 1
  | noSuchVar => 2
  | noSuchSubscription => 3
  | varAlreadySubscribed => 4
  | unknown => 5
  | undeclared code _ => code

/-- `static_cast<subscription_status>`. -/
def ofCode (code : UInt8) : SubscriptionStatus :=
  if outside : 6 ≤ code then undeclared code outside
  else if code = 0 then subscribed
  else if code = 1 then unsubscribed
  else if code = 2 then noSuchVar
  else if code = 3 then noSuchSubscription
  else if code = 4 then varAlreadySubscribed
  else unknown

@[simp] theorem ofCode_code (st : SubscriptionStatus) : ofCode st.code = st := by
  cases st with
  | undeclared code outside => simp [ofCode, SubscriptionStatus.code, outside]
  | _ => rfl

@[simp] theorem code_ofCode (code : UInt8) : (ofCode code).code = code := by
  unfold ofCode
  split
  · rfl
  · rename_i declared
    have few : code.toNat < 6 := by
      rw [UInt8.not_le, UInt8.lt_iff_toNat_lt] at declared
      exact declared
    split_ifs with c₀ c₁ c₂ c₃ c₄
    · exact c₀.symm
    · exact c₁.symm
    · exact c₂.symm
    · exact c₃.symm
    · exact c₄.symm
    · have : code.toNat = 5 := by
        simp only [← UInt8.toNat_inj, UInt8.reduceToNat] at c₀ c₁ c₂ c₃ c₄
        omega
      exact (UInt8.toNat_inj.mp this).symm

end SubscriptionStatus

inductive VariableType where
  | boolean
  | byte
  | word
  | dword
  | float
  deriving DecidableEq

namespace VariableType

def code : VariableType → UInt8
  | boolean => 0
  | byte => 1
  | word => 2
  | dword => 3
  | float => 4

/-- The enumerator that a byte is compared with, if any. -/
def ofCode (code : UInt8) : Option VariableType :=
  if code = 0 then some boolean
  else if code = 1 then some byte
  else if code = 2 then some word
  else if code = 3 then some dword
  else if code = 4 then some float
  else none

@[simp] theorem ofCode_code (t : VariableType) : ofCode t.code = some t := by
  cases t <;> rfl

end VariableType
end Oac.Proto
