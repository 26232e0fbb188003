import MacroDeck.Main
import MacroDeck.Proofs.CommandLine.Arguments
import MacroDeck.Proofs.CommandLine.LogLevel
import MacroDeck.Proofs.CommandLine.SkipInvalid
import MacroDeck.Proofs.Config.Overlay
import MacroDeck.Proofs.Config.Saved
import MacroDeck.Proofs.Document.Append
import MacroDeck.Proofs.Document.Image
import MacroDeck.Proofs.Host.Limit
import MacroDeck.Proofs.KeyValues.Insertions
import MacroDeck.Proofs.MacroKey.Decimal
import MacroDeck.Proofs.MacroSet.Definitions
import MacroDeck.Proofs.Opening.Account
import MacroDeck.Proofs.Opening.MacroFile
import MacroDeck.Proofs.Opening.Quotes
import MacroDeck.Proofs.Opening.Run
import MacroDeck.Proofs.Opening.Script
import MacroDeck.Proofs.Opening.SessionFile
import MacroDeck.Proofs.Path.Kind
