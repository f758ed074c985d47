import Netcf.Shared.Simulation
import Netcf.Shared.Lists
import Netcf.Shared.Chunks
import Netcf.Shared.Search
import Netcf.Shared.Pattern
import Netcf.Shared.Xml
import Netcf.Shared.Faulty
import Netcf.Shared.Siblings
import Netcf.Shared.Loops
import Netcf.Shared.Ordering
import Netcf.Shared.Stores
import Netcf.Shared.Blocks
import Netcf.Shared.Regex
import Netcf.Shared.Bidirectional
import Netcf.Shared.Repeating
import Netcf.Shared.Unfolding
import Netcf.Lenses.Values
import Netcf.Lenses.Sysconfig
import Netcf.Lenses.Files
import Netcf.Schema.Lexical
import Netcf.Schema.Document
import Netcf.Schema.Ipv6
import Netcf.Stylesheet.Extension
import Netcf.Stylesheet.Bonding
import Netcf.Stylesheet.Options
import Netcf.Stylesheet.Netmask
import Netcf.Linux.Augeas
import Netcf.Linux.Lifecycle
import Netcf.Linux.Tables
import Netcf.Linux.Modprobe
import Netcf.Linux.Define
import Netcf.Linux.Naming
import Netcf.Linux.References
import Netcf.Linux.Frame
import Netcf.Linux.Atomicity
import Netcf.Linux.Outcome
import Netcf.Linux.Saving
import Netcf.Linux.Aliases
import Netcf.Linux.Programs
import Netcf.Linux.Repetition
import Netcf.Linux.Listing
import Netcf.Linux.Nodes
import Netcf.Linux.Addresses
import Netcf.Linux.Live
import Netcf.Linux.Topology
import Netcf.Linux.Ending
import Netcf.Linux.Nesting
import Netcf.RedHat.Get
import Netcf.RedHat.Put
import Netcf.RedHat.Forest
import Netcf.RedHat.RoundTrip
import Netcf.RedHat.Scripts
import Netcf.RedHat.Driver
import Netcf.RedHat.Family
import Netcf.RedHat.Replace
import Netcf.RedHat.BondSetup
import Netcf.RedHat.Lookup
import Netcf.RedHat.Define
import Netcf.RedHat.Untouched
import Netcf.RedHat.Undefine
import Netcf.RedHat.Complete
import Netcf.RedHat.Decoding
import Netcf.RedHat.Choice
import Netcf.RedHat.Listing
import Netcf.RedHat.Legible
import Netcf.RedHat.Findable
import Netcf.RedHat.Counting
import Netcf.RedHat.Sessions
import Netcf.RedHat.Agreement
import Netcf.RedHat.MacLookup
import Netcf.RedHat.Tracking
import Netcf.Debian.Get
import Netcf.Debian.Put
import Netcf.Debian.Interfaces
import Netcf.Debian.Driver
import Netcf.Debian.Forest
import Netcf.Debian.Protocols
import Netcf.Debian.RoundTrip
import Netcf.Debian.Storage
import Netcf.Debian.Auto
import Netcf.Debian.Rereading
import Netcf.Debian.Undefine
import Netcf.Debian.Dependents
import Netcf.Debian.Listing
import Netcf.Suse.Stylesheets
import Netcf.Suse.RoundTrip
import Netcf.Suse.Driver
import Netcf.Suse.Store
import Netcf.Lenses.Ifcfg
import Netcf.Lenses.Saving
import Netcf.Shared.Shelf
import Netcf.Shared.Attempts
import Netcf.Shared.Triples
import Netcf.RedHat.Arrangement
import Netcf.RedHat.Shelf
import Netcf.RedHat.Store
import Netcf.Linux.Switching
import Netcf.RedHat.Switching
import Netcf.Suse.Lookup
import Netcf.Suse.Listing
import Netcf.Suse.MacLookup
import Netcf.Drivers.Atomicity
import Netcf.Drivers.Redefine
import Netcf.Drivers.BaseDevice
import Netcf.Drivers.Listing
import Netcf.Drivers.Naming
import Netcf.Drivers.Filtering
import Netcf.FreeBSD.Undefine
import Netcf.FreeBSD.Interfaces
import Netcf.FreeBSD.Records
import Netcf.FreeBSD.Lookup
import Netcf.FreeBSD.Description
import Netcf.Windows.Mac
import Netcf.Posix.Program
import Netcf.Posix.Outcome
import Netcf.Posix.Codes
import Netcf.Posix.Child
import Netcf.Tool.Tokens
import Netcf.Tool.OneShot
import Netcf.Tool.Commands
import Netcf.Tool.Parsing
import Netcf.Tool.Grammar
import Netcf.Tool.Handlers
import Netcf.Linux.Holding
import Netcf.Linux.Instances
import Netcf.Tool.Sessions
import Netcf.RedHat.Console
import Netcf.Transaction.Script
import Netcf.Transaction.Abstract
import Netcf.Transaction.Refinement
import Netcf.Transaction.Archives
import Netcf.Transaction.Failure
import Netcf.Transaction.Status
import Netcf.Transaction.Api
