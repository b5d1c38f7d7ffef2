import NodeKeeper.Cache.Basic
import NodeKeeper.Cache.Stage
import NodeKeeper.Compression.Coding
import NodeKeeper.Compression.Huffman
import NodeKeeper.Compression.Inflate
import NodeKeeper.Config.Document
import NodeKeeper.Config.Flaw
import NodeKeeper.Config.Identity
import NodeKeeper.Config.Reading
import NodeKeeper.Config.Root
import NodeKeeper.Config.Section
import NodeKeeper.Config.Timing
import NodeKeeper.Decimal.Binary
import NodeKeeper.Decimal.Layout
import NodeKeeper.Decimal.Reading
import NodeKeeper.Decimal.Shortest
import NodeKeeper.Fault.Basic
import NodeKeeper.Flow
import NodeKeeper.Identity.Backoff
import NodeKeeper.Identity.Calendar
import NodeKeeper.Identity.Credentials
import NodeKeeper.Identity.Expiry
import NodeKeeper.Identity.Service
import NodeKeeper.Identity.Supplier
import NodeKeeper.Identity.Wiring
import NodeKeeper.Log
import NodeKeeper.Naming
import NodeKeeper.Node.Image
import NodeKeeper.Node.Login
import NodeKeeper.Node.Provision
import NodeKeeper.Node.Stage
import NodeKeeper.Node.Teardown
import NodeKeeper.Node.World
import NodeKeeper.Orphan.Ref
import NodeKeeper.Poll
import NodeKeeper.Proofs.Cache.Coherent
import NodeKeeper.Proofs.Cache.History
import NodeKeeper.Proofs.Cache.Kindred
import NodeKeeper.Proofs.Cache.Protocol
import NodeKeeper.Proofs.Cache.Since
import NodeKeeper.Proofs.Cache.SingleFlight
import NodeKeeper.Proofs.Cache.Tables
import NodeKeeper.Proofs.Decimal.Order
import NodeKeeper.Proofs.Fault.Kinds
import NodeKeeper.Proofs.Flow.Meets
import NodeKeeper.Proofs.Flow.Waiting
import NodeKeeper.Proofs.Identity.Accounts
import NodeKeeper.Proofs.Identity.Balance
import NodeKeeper.Proofs.Identity.Changes
import NodeKeeper.Proofs.Identity.HandedOut
import NodeKeeper.Proofs.Identity.Provenance
import NodeKeeper.Proofs.Identity.Thrift
import NodeKeeper.Proofs.Identity.Turns
import NodeKeeper.Proofs.Naming.Recognition
import NodeKeeper.Proofs.Node.Durations
import NodeKeeper.Proofs.Node.Happenings
import NodeKeeper.Proofs.Node.Provision
import NodeKeeper.Proofs.Node.Removal
import NodeKeeper.Proofs.Node.Repetition
import NodeKeeper.Proofs.Node.Teardown
import NodeKeeper.Proofs.Provider.Agreement
import NodeKeeper.Proofs.Provider.KeyPairs
import NodeKeeper.Proofs.Provider.Listing
import NodeKeeper.Proofs.Provider.Reports
import NodeKeeper.Proofs.Session.Bystanders
import NodeKeeper.Proofs.Session.Callers
import NodeKeeper.Proofs.Session.Calls
import NodeKeeper.Proofs.Session.Conduct
import NodeKeeper.Proofs.Session.Course
import NodeKeeper.Proofs.Session.Due
import NodeKeeper.Proofs.Session.Entitled
import NodeKeeper.Proofs.Session.Getting
import NodeKeeper.Proofs.Session.Joining
import NodeKeeper.Proofs.Session.Loads
import NodeKeeper.Proofs.Session.Origin
import NodeKeeper.Proofs.Session.Pool
import NodeKeeper.Proofs.Session.Results
import NodeKeeper.Proofs.Session.Run
import NodeKeeper.Proofs.Session.Sharing
import NodeKeeper.Proofs.Session.Tally
import NodeKeeper.Proofs.Session.Valid
import NodeKeeper.Proofs.Session.Visibility
import NodeKeeper.Provider.Flat
import NodeKeeper.Provider.Guest
import NodeKeeper.Provider.KeyPairs
import NodeKeeper.Provider.Network
import NodeKeeper.Provider.Region
import NodeKeeper.Provider.Scripted
import NodeKeeper.Provider.Simulated
import NodeKeeper.Session.Basic
import NodeKeeper.Session.Getting
import NodeKeeper.Session.Roster
import NodeKeeper.Text.Casing
import NodeKeeper.Text.CharClass
import NodeKeeper.Text.Composed
import NodeKeeper.Text.Direction
import NodeKeeper.Text.Encoding
import NodeKeeper.Text.Integer
import NodeKeeper.Text.Joining
import NodeKeeper.Text.Mark
import NodeKeeper.Text.Printable
import NodeKeeper.Text.Quoted
import NodeKeeper.Text.Ranges
import NodeKeeper.Text.Script
import NodeKeeper.Value.Access
import NodeKeeper.Value.Basic
import NodeKeeper.Value.Json
import NodeKeeper.Web.Acceptance
import NodeKeeper.Web.Address
import NodeKeeper.Web.Channel
import NodeKeeper.Web.Escaping
import NodeKeeper.Web.Host
import NodeKeeper.Web.HostName
import NodeKeeper.Web.Message
import NodeKeeper.Web.Punycode
import NodeKeeper.Proofs.Session.Blind
import NodeKeeper.Proofs.Session.Looks
import NodeKeeper.Proofs.Cache.Renaming
import NodeKeeper.Proofs.Identity.Disguise
import NodeKeeper.Proofs.Flow.InStep
import NodeKeeper.Proofs.Node.Alike
import NodeKeeper.Proofs.Provider.Secrecy
import NodeKeeper.Proofs.Config.Timing
import NodeKeeper.Proofs.Flow.Known
import NodeKeeper.Proofs.Node.Known
import NodeKeeper.Proofs.Provider.Simulated
import NodeKeeper.Proofs.Provider.Course
import NodeKeeper.Proofs.Poll.Decisive
import NodeKeeper.Proofs.Node.DrainTimeout
import NodeKeeper.Proofs.Node.Cleanup
import NodeKeeper.Proofs.Cache.Sole
import NodeKeeper.Proofs.Session.Marks
import NodeKeeper.Proofs.Session.Sieve
import NodeKeeper.Proofs.Session.Independence
import NodeKeeper.Proofs.Poll.Bounded
import NodeKeeper.Proofs.Node.Image
import NodeKeeper.Proofs.Identity.Retries
import NodeKeeper.Proofs.Cache.Standing
import NodeKeeper.Proofs.Session.Errands
import NodeKeeper.Proofs.Session.Gates
import NodeKeeper.Proofs.Session.Asking
import NodeKeeper.Proofs.Session.Exchanges
import NodeKeeper.Proofs.Provider.Creations
import NodeKeeper.Proofs.Provider.Serving
import NodeKeeper.Proofs.Flow.Writing
import NodeKeeper.Proofs.Node.Stages
import NodeKeeper.Proofs.Provider.Exact
import NodeKeeper.Proofs.Decimal.Value
import NodeKeeper.Proofs.Identity.Waits
import NodeKeeper.Proofs.Provider.Region
import NodeKeeper.Proofs.Cache.Generations
import NodeKeeper.Proofs.Session.Tables
import NodeKeeper.Proofs.Config.Fields
import NodeKeeper.Proofs.Config.Leaves
