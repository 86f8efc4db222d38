import ComparisonChain.Json.Dialect
import ComparisonChain.Reading.Chain
import ComparisonChain.Reading.Flat
import ComparisonChain.Store.Basic
import ComparisonChain.Store.Interleaving
import ComparisonChain.Proofs.Connectors
import ComparisonChain.Proofs.TokenRuns
import ComparisonChain.Proofs.Peeling
import ComparisonChain.Proofs.Contents
import ComparisonChain.Proofs.Passes
import ComparisonChain.Proofs.Flat
import ComparisonChain.Proofs.Separation
import ComparisonChain.Proofs.Layers
import ComparisonChain.Proofs.Nesting
import ComparisonChain.Proofs.Coherence
import ComparisonChain.Proofs.Numerals
import ComparisonChain.Proofs.Renderings
import ComparisonChain.Proofs.CanonicalText
import ComparisonChain.Proofs.Histories
import ComparisonChain.Proofs.Transparency
import ComparisonChain.Proofs.Joining
import ComparisonChain.Proofs.JsonValues
import ComparisonChain.Proofs.JsonChains
import ComparisonChain.Proofs.Sharing
import ComparisonChain.Proofs.Records
import ComparisonChain.Proofs.Literals
import ComparisonChain.Proofs.Evaluation
import ComparisonChain.Proofs.Limits
import ComparisonChain.Proofs.Matching
import ComparisonChain.Proofs.Balance
import ComparisonChain.Proofs.EntryOrder
import ComparisonChain.Proofs.Bounds
import ComparisonChain.Proofs.Offsets
import ComparisonChain.Proofs.Searches
import ComparisonChain.Proofs.Removals
import ComparisonChain.Proofs.Meetable
import ComparisonChain.Proofs.Reports
