import Lineage.Account
import Lineage.Birth.Certificate
import Lineage.Curve.Ecdsa
import Lineage.Curve.P256
import Lineage.Dag
import Lineage.Dag.Tables
import Lineage.Digest
import Lineage.Digest.Map
import Lineage.Genesis
import Lineage.Hash.Blake3
import Lineage.Hash.Sha256
import Lineage.Json.Basic
import Lineage.Json.Printer
import Lineage.Json.Reader
import Lineage.Key.Error
import Lineage.Key.Private
import Lineage.Key.Public
import Lineage.Law.Parameters
import Lineage.Law.Windows
import Lineage.Message
import Lineage.Octets
import Lineage.Octets.Hex
import Lineage.Population
import Lineage.Settings
import Lineage.TimeProof
import Lineage.Steps
import Lineage.Text.Decimal
import Lineage.Text.Quoted
import Lineage.Toml.Reader
import Lineage.Toml.Value
import Lineage.Universe
import Lineage.Universe.Error
import Lineage.Universe.Query
import Lineage.Wire.Decoder
import Lineage.Proofs.Outcomes
import Lineage.Proofs.Json.Printing
import Lineage.Proofs.Digest.Ascending
import Lineage.Proofs.Dag.Insertion
import Lineage.Proofs.Dag.Ancestors
import Lineage.Proofs.Dag.Growth
import Lineage.Proofs.Dag.Agreement
import Lineage.Proofs.Law.Windows
import Lineage.Proofs.Message.Proposals
import Lineage.Proofs.Population.Admission
import Lineage.Proofs.Population.Reasons
import Lineage.Proofs.TimeProof.Counting
import Lineage.Proofs.Universe.Transition
import Lineage.Proofs.Universe.Surplus
import Lineage.Proofs.Universe.Numbering
import Lineage.Proofs.Universe.Alike
import Lineage.Proofs.Universe.Delivery
import Lineage.Proofs.Universe.Commutation
import Lineage.Proofs.Universe.Anchoring
import Lineage.Proofs.Universe.Links
import Lineage.Proofs.Universe.Calls
import Lineage.Proofs.Universe.Reachable
import Lineage.Proofs.Universe.Runs
import Lineage.Proofs.Universe.Growth
import Lineage.Proofs.Universe.Provenance
import Lineage.Proofs.Universe.Atomicity
import Lineage.Proofs.Universe.BirthWindows
import Lineage.Proofs.Universe.Recounting
import Lineage.Proofs.Universe.Authenticity
import Lineage.Proofs.Dag.Kinship
import Lineage.Proofs.Universe.Overflow
import Lineage.Proofs.Universe.Chains
import Lineage.Proofs.Universe.CausalTimes
import Lineage.Proofs.Population.BirthCheck
import Lineage.Proofs.Population.History
import Lineage.Proofs.Population.Ancestry
import Lineage.Proofs.Population.Verdicts
import Lineage.Proofs.Dag.Parts
import Lineage.Proofs.Universe.Membership
import Lineage.Proofs.Octets.Hex
import Lineage.Proofs.Json.Reading
import Lineage.Proofs.Wire.Forms
import Lineage.Proofs.Wire.Keys
import Lineage.Proofs.Wire.Records
import Lineage.Proofs.Wire.Naming
import Lineage.Proofs.Wire.Transport
import Lineage.Proofs.Universe.Creation
import Lineage.Proofs.Universe.Fertility
import Lineage.Proofs.Population.Generations
import Lineage.Proofs.Universe.Snapshots
import Lineage.Proofs.Universe.AnchoringOutcomes
import Lineage.Proofs.Universe.Lifetimes
import Lineage.Proofs.Dag.Tables
import Lineage.Proofs.Dag.Search
import Lineage.Proofs.Key.Signatures
import Lineage.Proofs.Universe.Refusals
import Lineage.Proofs.Universe.BirthOutcomes
import Lineage.Proofs.Population.BirthFaults
import Lineage.Proofs.Key.Signing
import Lineage.Proofs.Birth.Cosigning
import Lineage.Proofs.Birth.Payloads
import Lineage.Proofs.Octets.Spelling
import Lineage.Proofs.Digest.Texts
import Lineage.Proofs.Wire.Acceptance
import Lineage.Proofs.Key.Verdicts
import Lineage.Proofs.Curve.Powers
import Lineage.Proofs.Curve.Primes
import Lineage.Proofs.Curve.Group
import Lineage.Proofs.Curve.Multiples
import Lineage.Proofs.Curve.Signatures
import Lineage.Proofs.Key.Points
import Lineage.Proofs.Key.Import
import Lineage.Proofs.Key.Generation
import Lineage.Proofs.Key.Agreement
import Lineage.Proofs.Law.Breaches
import Lineage.Proofs.Law.Parameters
import Lineage.Proofs.TimeProof.Offers
import Lineage.Proofs.Universe.Foundation
