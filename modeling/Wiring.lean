import Wiring.Cache
import Wiring.Catalogue
import Wiring.Component
import Wiring.Config
import Wiring.Config.Ini
import Wiring.Container
import Wiring.Container.Overview
import Wiring.Decimal.Binary64
import Wiring.Decimal.Reading
import Wiring.Decimal.Shortest
import Wiring.Decimal.Whole
import Wiring.Declaration
import Wiring.Definition
import Wiring.Fault
import Wiring.Files.Browser
import Wiring.Files.Path
import Wiring.Files.Tree
import Wiring.Host.Annotation
import Wiring.Host.Binding
import Wiring.Host.Builtin
import Wiring.Host.Callable
import Wiring.Host.Expression
import Wiring.Host.Member
import Wiring.Host.Object
import Wiring.Host.Program
import Wiring.Host.TextMethods
import Wiring.Json.Reader
import Wiring.Json.Writer
import Wiring.Log
import Wiring.OrderedMap
import Wiring.Overlay
import Wiring.Proofs.Accepting
import Wiring.Proofs.Additions
import Wiring.Proofs.AllSettings
import Wiring.Proofs.Applying
import Wiring.Proofs.Binding
import Wiring.Proofs.Browsing
import Wiring.Proofs.Building
import Wiring.Proofs.CachedCores
import Wiring.Proofs.Caching
import Wiring.Proofs.CallTables
import Wiring.Proofs.Cells
import Wiring.Proofs.Configuring
import Wiring.Proofs.Containers
import Wiring.Proofs.Contexts
import Wiring.Proofs.Copying
import Wiring.Proofs.Cores
import Wiring.Proofs.Declaring
import Wiring.Proofs.Decoding
import Wiring.Proofs.Dependencies
import Wiring.Proofs.Destinations
import Wiring.Proofs.Documents
import Wiring.Proofs.Environments
import Wiring.Proofs.Extending
import Wiring.Proofs.Failing
import Wiring.Proofs.Faults
import Wiring.Proofs.Gathering
import Wiring.Proofs.Growth
import Wiring.Proofs.Hosting
import Wiring.Proofs.Independence
import Wiring.Proofs.Indexing
import Wiring.Proofs.IniFiles
import Wiring.Proofs.Inlining
import Wiring.Proofs.Keeping
import Wiring.Proofs.Layering
import Wiring.Proofs.Lifecycle
import Wiring.Proofs.Loading
import Wiring.Proofs.Merging
import Wiring.Proofs.Mirroring
import Wiring.Proofs.OrderedMaps
import Wiring.Proofs.Overlays
import Wiring.Proofs.Overriding
import Wiring.Proofs.Paths
import Wiring.Proofs.Placing
import Wiring.Proofs.Preference
import Wiring.Proofs.Producing
import Wiring.Proofs.Registering
import Wiring.Proofs.Reloading
import Wiring.Proofs.Replacing
import Wiring.Proofs.Resolving
import Wiring.Proofs.Restoring
import Wiring.Proofs.Rewiring
import Wiring.Proofs.Selection
import Wiring.Proofs.SelfInjection
import Wiring.Proofs.Separating
import Wiring.Proofs.Sequence
import Wiring.Proofs.Setting
import Wiring.Proofs.Snapshots
import Wiring.Proofs.Spellings
import Wiring.Proofs.Substituting
import Wiring.Proofs.Termination
import Wiring.Proofs.WellFormed
import Wiring.Proofs.Work
import Wiring.Proofs.Writing
import Wiring.Registry
import Wiring.Resolution.Arguments
import Wiring.Resolution.Engine
import Wiring.Resolution.Exclusion
import Wiring.Resolution.Filling
import Wiring.Resolution.Invocation
import Wiring.Resolution.Members
import Wiring.Resolution.Parser
import Wiring.Resolution.Request
import Wiring.Resolution.Selection
import Wiring.Settings
import Wiring.Snapshot
import Wiring.Store
import Wiring.Store.Attributes
import Wiring.Store.BuiltinMethods
import Wiring.Store.Cells
import Wiring.Store.Configs
import Wiring.Store.Containers
import Wiring.Store.Copying
import Wiring.Store.Cores
import Wiring.Store.Declarations
import Wiring.Store.Injectors
import Wiring.Store.Objects
import Wiring.Store.Sources
import Wiring.Store.Values
import Wiring.Text.LetterCase
import Wiring.Text.Printable
import Wiring.Text.Quoted
import Wiring.Text.Split
import Wiring.Text.UpperCase
import Wiring.Value
import Wiring.Xml.Alphabets
import Wiring.Xml.Characters
import Wiring.Xml.Content
import Wiring.Xml.Declarations
import Wiring.Xml.Document
import Wiring.Xml.DocumentType
import Wiring.Xml.Element
import Wiring.Xml.Encoding
import Wiring.Xml.Scan
