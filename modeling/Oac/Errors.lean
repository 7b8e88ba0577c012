import Oac.Proto.Types
import Oac.Var

/-!
# Exceptions

The exceptions of the project with their parameters. Causes and the position in the
source, which only reports show, are left out.
-/
namespace Oac

/-- An `oac::exception`. -/
inductive Exception where
  /-- `io::eof_error` -/
  | eof
  /-- `io::boost_asio_error` -/
  | boostAsio (errorCode : Int)
  /-- `network::connection_reset` -/
  | connectionReset
  /-- `buffer::index_out_of_bounds` -/
  | indexOutOfBounds (index lowerBound upperBound : Int)
  /-- `proto::unexpected_message_error` -/
  | unexpectedMessage (msgType : Proto.MessageType)
  /-- `proto::invalid_variable_type` -/
  | invalidVariableType (varCode : UInt8)
  /-- `proto::invalid_message_type` -/
  | invalidMessageType (messageCode : UInt16)
  /-- `proto::invalid_termination_mark` -/
  | invalidTerminationMark (terminationMark : UInt16)
  /-- `enum_out_of_range_error<subscription_status>` -/
  | statusOutOfRange (value : UInt8)
  /-- `client::communication_error` -/
  | communication
  /-- `flight_vars::no_such_variable_error` -/
  | noSuchVariable (varId : VariableId)
  /-- `flight_vars::no_such_subscription_error` -/
  | noSuchSubscription (subsId : SubscriptionId)
  /-- `flight_vars::illegal_value_error` -/
  | illegalValue (subsId : SubscriptionId)
  /-- `subs::no_such_variable_error` -/
  | mapperNoSuchVariable (varId : VariableId)
  /-- `subs::no_such_subscription_error` -/
  | mapperNoSuchSubscription (subsId : SubscriptionId)
  /-- `subs::variable_already_exists_error` -/
  | mapperVariableExists (varId : VariableId)
  /-- `subs::subscription_already_exists_error` -/
  | mapperSubscriptionExists (subsId : SubscriptionId)
  /-- `subscription_db::variable_already_exists_error` -/
  | dbVariableExists (varId : VariableId)
  /-- `subscription_db::master_subscription_already_exists_error` -/
  | dbMasterExists (subsId : SubscriptionId)
  /-- `subscription_db::no_such_variable_error` -/
  | dbNoSuchVariable (varId : VariableId)
  /-- `subscription_db::no_such_master_subscription_error` -/
  | dbNoSuchMaster (subsId : SubscriptionId)
  /-- `subscription_db::no_such_virtual_subscription_error` -/
  | dbNoSuchVirtual (subsId : SubscriptionId)
  /-- `fv::fsuipc::invalid_var_group_error` -/
  | invalidVarGroup (expected actual : Str)
  /-- `fv::fsuipc::var_name_syntax_error` -/
  | varNameSyntax (varName : Str)
  /-- `fsuipc_offset_db::no_such_offset_error` -/
  | offsetDbNoSuchOffset (address length : Nat)
  /-- `fsuipc_offset_db::no_such_subscription_error` -/
  | offsetDbNoSuchSubscription (subsId : SubscriptionId)
  /-- `fsuipc::fsuipc_error` -/
  | fsuipc (errorCode : Int)
  /-- `cockpit_back::sync_error` -/
  | sync
  /-- `flight_vars_core::master_already_registered` -/
  | masterAlreadyRegistered (varGroup : Str)
  /-- An exception of a FlightVars implementation that its interface does not declare. -/
  | foreign (code : Nat)
  deriving DecidableEq

/-- The subclasses of `proto::protocol_exception`. -/
def Exception.IsProtocol : Exception → Prop
  | .unexpectedMessage _ => True
  | .invalidVariableType _ => True
  | .invalidMessageType _ => True
  | .invalidTerminationMark _ => True
  | _ => False

instance (e : Exception) : Decidable e.IsProtocol := by
  cases e <;> first | exact isTrue trivial | exact isFalse id

/-- The subclasses of `io_exception`. -/
def Exception.IsIo : Exception → Bool
  | .eof => true
  | .boostAsio _ => true
  | .connectionReset => true
  | .fsuipc _ => true
  | _ => false

/-- The subclasses of `fv::fsuipc::invalid_var_exception`. -/
def Exception.IsInvalidVar : Exception → Bool
  | .invalidVarGroup _ _ => true
  | .varNameSyntax _ => true
  | _ => false

end Oac
