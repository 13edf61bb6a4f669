import PipelineConfig.Assoc
import PipelineConfig.CommandLine.Arguments
import PipelineConfig.CommandLine.Options
import PipelineConfig.CommandLine.Program
import PipelineConfig.CommandLine.Supplies
import PipelineConfig.Condition.Checks
import PipelineConfig.Condition.Document
import PipelineConfig.Condition.Error
import PipelineConfig.Condition.Registry
import PipelineConfig.ConfigError
import PipelineConfig.Decimal.Reading
import PipelineConfig.Decimal.Shortest
import PipelineConfig.Decimal.Text
import PipelineConfig.Dialog
import PipelineConfig.Disk.Basic
import PipelineConfig.Disk.Glob
import PipelineConfig.Disk.Pattern
import PipelineConfig.Document.Basic
import PipelineConfig.Document.Decoding
import PipelineConfig.Document.Loading
import PipelineConfig.Fault
import PipelineConfig.File
import PipelineConfig.Http.Message
import PipelineConfig.Http.Status
import PipelineConfig.Http.Url
import PipelineConfig.Http.Wire
import PipelineConfig.Json.Basic
import PipelineConfig.Json.Number
import PipelineConfig.Json.Printer
import PipelineConfig.Json.Reader
import PipelineConfig.Main
import PipelineConfig.Metadata.Basic
import PipelineConfig.Metadata.Decoding
import PipelineConfig.Metadata.Encoding
import PipelineConfig.Metadata.Filters
import PipelineConfig.Pipeline.Deactivation
import PipelineConfig.Pipeline.Definition
import PipelineConfig.Pipeline.Rules
import PipelineConfig.Pipeline.RunConfig
import PipelineConfig.Pipeline.StageDefinition
import PipelineConfig.Redaction
import PipelineConfig.Report
import PipelineConfig.Resolution.Aliases
import PipelineConfig.Resolution.Context
import PipelineConfig.Resolution.StepConfig
import PipelineConfig.Secret.Basic
import PipelineConfig.Secret.Credentials
import PipelineConfig.Secret.Error
import PipelineConfig.Secret.Files
import PipelineConfig.Secret.KvServer
import PipelineConfig.Secret.Path
import PipelineConfig.Secret.Resolution
import PipelineConfig.Secret.TrustService
import PipelineConfig.Template
import PipelineConfig.Text.Blank
import PipelineConfig.Text.Marks
import PipelineConfig.Text.Quoted
import PipelineConfig.Value.Basic
import PipelineConfig.Value.Equality
import PipelineConfig.Value.Merge
import PipelineConfig.Width
import PipelineConfig.Yaml.Cursor
import PipelineConfig.Yaml.Decoding
import PipelineConfig.Yaml.Generic
import PipelineConfig.Yaml.Node
import PipelineConfig.Yaml.Node.Composition
import PipelineConfig.Yaml.Scalar
import PipelineConfig.Yaml.Token
import PipelineConfig.Yaml.Token.Lexer
import PipelineConfig.Yaml.Token.Scalars
import PipelineConfig.Proofs.Assoc
import PipelineConfig.Proofs.Redaction
import PipelineConfig.Proofs.FirstError
import PipelineConfig.Proofs.Merge
import PipelineConfig.Proofs.CanonicalForm
import PipelineConfig.Proofs.Interpolation
import PipelineConfig.Proofs.Precedence
import PipelineConfig.Proofs.History
import PipelineConfig.Proofs.Reasons
import PipelineConfig.Proofs.Listings
import PipelineConfig.Proofs.StageDocument
import PipelineConfig.Proofs.Filters
import PipelineConfig.Proofs.Confinement
import PipelineConfig.Proofs.Isolation
import PipelineConfig.Proofs.Respondents
import PipelineConfig.Proofs.Adoptions
import PipelineConfig.Proofs.Lookups
import PipelineConfig.Proofs.Filling
import PipelineConfig.Proofs.Masking
import PipelineConfig.Proofs.Settable
import PipelineConfig.Proofs.Activation
import PipelineConfig.Proofs.Calls
import PipelineConfig.Proofs.Turns
import PipelineConfig.Proofs.LookupOrder
import PipelineConfig.Proofs.Cancellation
import PipelineConfig.Proofs.Consistency
import PipelineConfig.Proofs.Failures
import PipelineConfig.Proofs.Defaults
import PipelineConfig.Proofs.Independence
import PipelineConfig.Proofs.ConditionalParameters
import PipelineConfig.Proofs.ParameterOrder
import PipelineConfig.Proofs.Data
import PipelineConfig.Proofs.Formats
import PipelineConfig.Proofs.Notes
import PipelineConfig.Proofs.IdleSections
import PipelineConfig.Proofs.Keeping
import PipelineConfig.Proofs.SecretDirectories
import PipelineConfig.Proofs.Segments
import PipelineConfig.Proofs.CredentialsFile
import PipelineConfig.Proofs.References
import PipelineConfig.Proofs.ReferenceChains
import PipelineConfig.Proofs.Replacement
import PipelineConfig.Proofs.JsonBuilders
import PipelineConfig.Proofs.JsonTokens
import PipelineConfig.Proofs.JsonSpelling
import PipelineConfig.Proofs.JsonRoundTrip
import PipelineConfig.Proofs.FixedPoint
import PipelineConfig.Proofs.Paths
import PipelineConfig.Proofs.Canonicalization
import PipelineConfig.Proofs.Regrouping
import PipelineConfig.Proofs.CanonicalConfiguration
import PipelineConfig.Proofs.Remerging
import PipelineConfig.Proofs.RuleKinds
import PipelineConfig.Proofs.StepRules
import PipelineConfig.Proofs.ParameterForms
import PipelineConfig.Proofs.PackageScripts
import PipelineConfig.Proofs.DiskTrees
import PipelineConfig.Proofs.Loading
import PipelineConfig.Proofs.LocalFiles
import PipelineConfig.Proofs.BrokenDocuments
import PipelineConfig.Proofs.RegistrationOrder
import PipelineConfig.Proofs.Pieces
import PipelineConfig.Proofs.SecretPaths
import PipelineConfig.Proofs.DefaultPlaces
import PipelineConfig.Proofs.CredentialPairing
import PipelineConfig.Proofs.UrlPaths
import PipelineConfig.Proofs.VersionedPaths
import PipelineConfig.Proofs.EngineVersions
import PipelineConfig.Proofs.VariableNames
import PipelineConfig.Proofs.PathNormalization
