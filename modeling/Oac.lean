import Oac.Agreement
import Oac.Arduino.Icm7218
import Oac.Arduino.Inputs
import Oac.Arduino.Max7219
import Oac.Base.Decoder
import Oac.Buffer.Bounds
import Oac.Buffer.Gather
import Oac.Buffer.Linear
import Oac.Client.Callers
import Oac.Client.Disconnection
import Oac.Client.Entries
import Oac.Client.Resolution
import Oac.Client.Validity
import Oac.Cockpit.Fields
import Oac.Cockpit.Mapping
import Oac.Deployment.Relay
import Oac.Cockpit.Presses
import Oac.Concurrency
import Oac.Core
import Oac.Feed
import Oac.FlightVars
import Oac.FreshIds
import Oac.Fsuipc.Atomic
import Oac.Fsuipc.Dummy
import Oac.Fsuipc.Fidelity
import Oac.Fsuipc.Grammar
import Oac.Fsuipc.Instances
import Oac.Lines
import Oac.Loops
import Oac.Oacsp.Events
import Oac.Oacsp.Lines
import Oac.Oacsp.Observers
import Oac.Oacsp.Polls
import Oac.Oacsp.Session
import Oac.Outgoing
import Oac.Pedestal.Sketch
import Oac.Proto.Codec
import Oac.Proto.Floats
import Oac.Proto.Input
import Oac.Server.Progress
import Oac.Server.Teardown
import Oac.Server.Updates
import Oac.Swap
import Oac.VarText
