import Terminfo.Config.Json
import Terminfo.Fleet
import Terminfo.Sink.Rationed
import Terminfo.Terminal.Closure
import Terminfo.Proofs.Provider
import Terminfo.Proofs.Switchboard
import Terminfo.Proofs.Context
import Terminfo.Proofs.WindowRegister
import Terminfo.Proofs.Text.Decimal
import Terminfo.Proofs.Session.Owned
import Terminfo.Proofs.Session.Outcome
import Terminfo.Proofs.Session.Fixed
import Terminfo.Proofs.Fleet.Names
import Terminfo.Proofs.Fleet.Ownership
import Terminfo.Proofs.Fleet.Refinement
import Terminfo.Proofs.Fleet.Isolation
import Terminfo.Proofs.Fleet.Failure
import Terminfo.Proofs.Fleet.TypedLookup
import Terminfo.Proofs.Fleet.Unbound
import Terminfo.Proofs.Crew.Errand
import Terminfo.Proofs.Crew.Own
import Terminfo.Proofs.Crew.Serving
import Terminfo.Proofs.Crew.Interleaving
import Terminfo.Proofs.Template.Spelling
import Terminfo.Proofs.Template.Guard
import Terminfo.Proofs.Template.Element
import Terminfo.Proofs.Template.Agreement
import Terminfo.Proofs.Terminal.Attempt
import Terminfo.Proofs.Terminal.Delivery
import Terminfo.Proofs.Terminal.Frame
import Terminfo.Proofs.Terminal.ControlString
import Terminfo.Proofs.Terminal.Inline
import Terminfo.Proofs.Terminal.Reliable
import Terminfo.Proofs.Terminal.Transparency
import Terminfo.Proofs.Terminal.Exit
import Terminfo.Proofs.Terminal.Process
import Terminfo.Proofs.Terminal.Dimension
import Terminfo.Proofs.Terminal.ScreenSize
import Terminfo.Proofs.Terminal.UnreadEnvironment
import Terminfo.Proofs.Terminal.ConfiguredTerm
import Terminfo.Proofs.Terminal.TypeName
import Terminfo.Proofs.Json.Token
import Terminfo.Proofs.Json.Tree
import Terminfo.Proofs.Json.Grammar
import Terminfo.Proofs.Config.RoundTrip
import Terminfo.Proofs.Config.Assignment
import Terminfo.Proofs.Session.Parameters
import Terminfo.Proofs.Fleet.Repetition
import Terminfo.Proofs.Terminal.PlainText
import Terminfo.Proofs.Padding.Team
import Terminfo.Proofs.Padding.Alone
import Terminfo.Proofs.Padding.Custody
