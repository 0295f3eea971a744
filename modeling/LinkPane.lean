import LinkPane.Text.Quoted
import LinkPane.Text.Position
import LinkPane.Json.Record
import LinkPane.Page.Site
import LinkPane.Proofs.Page.Inspector
import LinkPane.Proofs.Page.Typing
import LinkPane.Proofs.Table.History
import LinkPane.Proofs.Text.Octets
import LinkPane.Proofs.Json.Grammar
import LinkPane.Proofs.Json.Quoted
import LinkPane.Proofs.Json.Completeness
import LinkPane.Proofs.Json.Members
import LinkPane.Proofs.Json.Soundness
import LinkPane.Proofs.Json.Written
import LinkPane.Proofs.Payload.Language
import LinkPane.Proofs.Payload.Lenient
import LinkPane.Proofs.Payload.RoundTrip
import LinkPane.Proofs.Json.Faults
import LinkPane.Proofs.Payload.Faults
import LinkPane.Proofs.Json.Skipping
import LinkPane.Proofs.Json.Lockstep
import LinkPane.Proofs.Json.Settling
import LinkPane.Proofs.Json.Records
import LinkPane.Proofs.Json.Described
import LinkPane.Proofs.Theme.Members
import LinkPane.Proofs.Theme.FirstFault
import LinkPane.Proofs.Json.Kinds
import LinkPane.Proofs.Table.Keys
import LinkPane.Proofs.Markup.Skeleton
import LinkPane.Proofs.Table.Reading
import LinkPane.Proofs.Page.Skeleton
import LinkPane.Proofs.Json.Inside
import LinkPane.Proofs.Json.FirstFault
import LinkPane.Proofs.Json.Repeated
import LinkPane.Proofs.Payload.Direct
import LinkPane.Proofs.Payload.Endings
import LinkPane.Proofs.Table.Batching
import LinkPane.Proofs.Text.Quoting
import LinkPane.Proofs.Log.Lines
import LinkPane.Proofs.Json.Restoring
import LinkPane.Proofs.Json.TwoForms
import LinkPane.Proofs.Record.RoundTrip
import LinkPane.Proofs.Record.TwoForms
