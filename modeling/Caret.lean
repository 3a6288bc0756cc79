import Caret.Config.Discovery
import Caret.FileTree
import Caret.Main
import Caret.Proofs.CommandLine.Excerpts
import Caret.Proofs.CommandLine.Stages
import Caret.Proofs.CommandLine.StandIn
import Caret.Proofs.Config.Discovery
import Caret.Proofs.Config.Formats
import Caret.Proofs.Config.Formatters
import Caret.Proofs.Config.Precedence
import Caret.Proofs.Config.RoundTrip
import Caret.Proofs.Config.Rules
import Caret.Proofs.Config.Verdict
import Caret.Proofs.Contracts
import Caret.Proofs.Dict
import Caret.Proofs.FileTree
import Caret.Proofs.Idempotence
import Caret.Proofs.Json.Forms
import Caret.Proofs.Json.Members
import Caret.Proofs.LineTerminators
import Caret.Proofs.Message
import Caret.Proofs.NormalForm
import Caret.Proofs.Order
import Caret.Proofs.Snapshot
import Caret.Proofs.Snapshot.Layouts
import Caret.Proofs.Snapshot.Members
