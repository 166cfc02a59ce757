import CertLifecycle.Asn1.Element
import CertLifecycle.Asn1.Oid
import CertLifecycle.Authority
import CertLifecycle.Bundle
import CertLifecycle.Certificate
import CertLifecycle.CommandLine.Arguments
import CertLifecycle.CommandLine.Error
import CertLifecycle.CommandLine.Launch
import CertLifecycle.CommandLine.Runner
import CertLifecycle.CommandLine.Stores
import CertLifecycle.Configuration.Document
import CertLifecycle.Configuration.Rules
import CertLifecycle.Configuration.Settings
import CertLifecycle.Configuration.Source
import CertLifecycle.Crypto.Ecdsa
import CertLifecycle.Crypto.Ed25519
import CertLifecycle.Number.Natural
import CertLifecycle.Crypto.Sha
import CertLifecycle.Crypto.Rsa
import CertLifecycle.Crypto.StrictDer
import CertLifecycle.Decoding.Error
import CertLifecycle.Encoding.Base64
import CertLifecycle.Http.Exchange
import CertLifecycle.Http.Host
import CertLifecycle.Http.HostTable
import CertLifecycle.Http.Message
import CertLifecycle.Http.Percent
import CertLifecycle.Http.Punycode
import CertLifecycle.Http.Status
import CertLifecycle.Http.Url
import CertLifecycle.Json.Decode
import CertLifecycle.Json.Number
import CertLifecycle.Json.Tree
import CertLifecycle.Lifecycle.Error
import CertLifecycle.Lifecycle.Operations
import CertLifecycle.Lifecycle.Retry
import CertLifecycle.Lifecycle.Surroundings
import CertLifecycle.Main
import CertLifecycle.Number.Decimal
import CertLifecycle.Number.Shortest
import CertLifecycle.Pem
import CertLifecycle.Proofs.CancellationSafety
import CertLifecycle.Proofs.FailedWrites
import CertLifecycle.Proofs.IssueDecision
import CertLifecycle.Proofs.IssuedBundles
import CertLifecycle.Proofs.OperationFrames
import CertLifecycle.Proofs.OperationRuns
import CertLifecycle.Proofs.PemConcatenation
import CertLifecycle.Proofs.RetryIterations
import CertLifecycle.Proofs.StorageFrames
import CertLifecycle.Proofs.WorldRuns
import CertLifecycle.Proofs.WritePlans
import CertLifecycle.Renewal
import CertLifecycle.Storage.Destination
import CertLifecycle.Storage.Slot
import CertLifecycle.Storage.FanOut
import CertLifecycle.Storage.FileSlot
import CertLifecycle.Storage.FileSystem
import CertLifecycle.Storage.Layout
import CertLifecycle.Storage.PathText
import CertLifecycle.Storage.Store
import CertLifecycle.Text.Characters
import CertLifecycle.Text.Printable
import CertLifecycle.Text.Shown
import CertLifecycle.Text.Utf8
import CertLifecycle.Time.Calendar
import CertLifecycle.Time.Duration
import CertLifecycle.Trust
import CertLifecycle.Vault.Client
import CertLifecycle.Vault.Config
import CertLifecycle.Vault.Error
import CertLifecycle.Vault.Payload
import CertLifecycle.World
import CertLifecycle.X509.Certificate
import CertLifecycle.X509.Name
import CertLifecycle.X509.Instant
import CertLifecycle.X509.Signature
import CertLifecycle.Yaml.Cursor
import CertLifecycle.Yaml.Decode
import CertLifecycle.Yaml.Node
import CertLifecycle.Yaml.Scalar
import CertLifecycle.Yaml.Tag
import CertLifecycle.Yaml.Token
import CertLifecycle.Yaml.Value
import CertLifecycle.Proofs.RetryAnswers
import CertLifecycle.Proofs.FanOutIndependence
import CertLifecycle.Proofs.StoredAnswers
import CertLifecycle.Proofs.RepeatedIssues
import CertLifecycle.Proofs.ServerExchanges
import CertLifecycle.Proofs.ExchangeFailures
import CertLifecycle.Proofs.ArmouredText
import CertLifecycle.Proofs.PlacedBlocks
import CertLifecycle.Proofs.CharacterCodes
import CertLifecycle.Proofs.BlankLines
import CertLifecycle.Proofs.AcceptedRequests
import CertLifecycle.Proofs.PercentEscapes
import CertLifecycle.Proofs.UrlFolders
import CertLifecycle.Proofs.SecretPaths
import CertLifecycle.Proofs.PathComponents
import CertLifecycle.Proofs.FileTrees
import CertLifecycle.Proofs.StoredModes
import CertLifecycle.Proofs.DirectoryTrees
import CertLifecycle.Proofs.PreflightChecks
import CertLifecycle.Proofs.WrittenFiles
import CertLifecycle.Proofs.StoredLines
import CertLifecycle.Proofs.CleanText
import CertLifecycle.Proofs.BlankParts
import CertLifecycle.Proofs.LeadingBlocks
import CertLifecycle.Proofs.KeptKeys
import CertLifecycle.Proofs.SigningRuns
import CertLifecycle.Proofs.FetchedBundles
import CertLifecycle.Proofs.InstantRange
import CertLifecycle.Proofs.DoubleSigns
import CertLifecycle.Proofs.RenewalSwitch
import CertLifecycle.Proofs.OptionWords
import CertLifecycle.Proofs.CommandLines
import CertLifecycle.Proofs.ConfigOption
import CertLifecycle.Proofs.RecordTexts
import CertLifecycle.Proofs.RequestBodies
import CertLifecycle.Proofs.ArgumentFaults
import CertLifecycle.Proofs.DoubleOrder
import CertLifecycle.Proofs.ValidatedRuns
import CertLifecycle.Proofs.DoubleMagnitudes
import CertLifecycle.Proofs.DoubleValues
import CertLifecycle.Proofs.SpansInDoubles
import CertLifecycle.Proofs.PacedRuns
import CertLifecycle.Proofs.BackoffDelays
