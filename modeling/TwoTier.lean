import TwoTier.Builder
import TwoTier.Config.Shape
import TwoTier.Proofs.Codec.Evolution
import TwoTier.Proofs.Codec.Extends
import TwoTier.Proofs.Codec.FixedWidth
import TwoTier.Proofs.Codec.JsonText.Container
import TwoTier.Proofs.Codec.JsonText.Extends
import TwoTier.Proofs.Codec.JsonText.FreeForm
import TwoTier.Proofs.Codec.JsonText.Grammar
import TwoTier.Proofs.Codec.JsonText.Number
import TwoTier.Proofs.Codec.JsonText.Scalar
import TwoTier.Proofs.Codec.JsonText.Skipping
import TwoTier.Proofs.Codec.JsonText.Soundness
import TwoTier.Proofs.Codec.JsonText.Value
import TwoTier.Proofs.Codec.MessagePack.Grammar
import TwoTier.Proofs.Codec.MessagePack.Soundness
import TwoTier.Proofs.Codec.MessagePack.Token
import TwoTier.Proofs.Codec.MessagePack.Value
import TwoTier.Proofs.Codec.RoundTrip
import TwoTier.Proofs.Codec.Row
import TwoTier.Proofs.Codec.Takes
import TwoTier.Proofs.Codec.Truncation
import TwoTier.Proofs.Config.Documents
import TwoTier.Proofs.Config.Documents.JsonText
import TwoTier.Proofs.Config.Documents.MessagePack
import TwoTier.Proofs.Config.Entries
import TwoTier.Proofs.Config.Faults
import TwoTier.Proofs.Config.Loading
import TwoTier.Proofs.Config.Texts
import TwoTier.Proofs.Deployment.Agreement
import TwoTier.Proofs.Deployment.Contents
import TwoTier.Proofs.Deployment.Keeping
import TwoTier.Proofs.Deployment.Reachable
import TwoTier.Proofs.Deployment.Recalling
import TwoTier.Proofs.Deployment.Records
import TwoTier.Proofs.Deployment.Settled
import TwoTier.Proofs.Deployment.Tiers
import TwoTier.Proofs.Entry
import TwoTier.Proofs.Entry.Aging
import TwoTier.Proofs.Manager.Building
import TwoTier.Proofs.Manager.Computing
import TwoTier.Proofs.Manager.Created
import TwoTier.Proofs.Manager.Deletion
import TwoTier.Proofs.Manager.Effects
import TwoTier.Proofs.Manager.Health
import TwoTier.Proofs.Manager.Independence
import TwoTier.Proofs.Manager.Isolation
import TwoTier.Proofs.Manager.Lifetimes
import TwoTier.Proofs.Manager.Misuse
import TwoTier.Proofs.Manager.Parts
import TwoTier.Proofs.Manager.ReadBack
import TwoTier.Proofs.Manager.ReadThrough
import TwoTier.Proofs.Manager.Reading
import TwoTier.Proofs.Manager.Refusal
import TwoTier.Proofs.Manager.Removing
import TwoTier.Proofs.Manager.Rereading
import TwoTier.Proofs.Manager.Writing
import TwoTier.Proofs.Probe.Concurrent
import TwoTier.Proofs.Probe.Verdict
import TwoTier.Proofs.Runs
import TwoTier.Proofs.Script.Asks
import TwoTier.Proofs.Script.Computations
import TwoTier.Proofs.Script.Interleaving
import TwoTier.Proofs.Script.Within
import TwoTier.Proofs.Session
import TwoTier.Proofs.Session.Coherence
import TwoTier.Proofs.Session.Lodged
import TwoTier.Proofs.Session.Moves
import TwoTier.Proofs.Session.Nesting
import TwoTier.Proofs.Session.Provenance
import TwoTier.Proofs.Session.Unreadable
import TwoTier.Proofs.Store.Ceilings
import TwoTier.Proofs.Store.Counting
import TwoTier.Proofs.Store.Expiry
import TwoTier.Proofs.Store.History
import TwoTier.Proofs.Store.Losses
import TwoTier.Proofs.Store.Mapping
import TwoTier.Proofs.Store.Purging
import TwoTier.Proofs.Store.Records
import TwoTier.Proofs.Store.Sweeping
import TwoTier.Proofs.Store.Uses
import TwoTier.Proofs.Value.Regular
import TwoTier.Standard
import TwoTier.Value.Sample
