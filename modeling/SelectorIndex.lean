import SelectorIndex.Host.Script
import SelectorIndex.RuleList
import SelectorIndex.Fixture.Decode
import SelectorIndex.Main
import SelectorIndex.Proofs.Ascending
import SelectorIndex.Proofs.Edits
import SelectorIndex.Proofs.Sizes
import SelectorIndex.Proofs.Hosts
import SelectorIndex.Proofs.Selector.Joined
import SelectorIndex.Proofs.Documents
import SelectorIndex.Proofs.Queries
import SelectorIndex.Proofs.Selector.Names
import SelectorIndex.Proofs.Selector.Tokens
import SelectorIndex.Proofs.Selector.Segments
import SelectorIndex.Proofs.SelfContained
import SelectorIndex.Proofs.Keys
import SelectorIndex.Proofs.NameKeys
import SelectorIndex.Proofs.CompoundKeys
import SelectorIndex.Proofs.Lists
import SelectorIndex.Proofs.Agreement
import SelectorIndex.Proofs.Commands
import SelectorIndex.Proofs.Ledgers
import SelectorIndex.Proofs.Paths
import SelectorIndex.Proofs.Renaming
import SelectorIndex.Proofs.Traces
import SelectorIndex.Proofs.Selector.Accepted
import SelectorIndex.Proofs.Checks
import SelectorIndex.Proofs.Text.Encoding
import SelectorIndex.Proofs.Selector.Printed
import SelectorIndex.Proofs.Selector.Reread
import SelectorIndex.Proofs.RoundTrip
import SelectorIndex.Proofs.EscapedNames
import SelectorIndex.Proofs.DocumentOrder
import SelectorIndex.Proofs.Chains
import SelectorIndex.Proofs.Selector.Regrouped
import SelectorIndex.Proofs.Selector.Balanced
import SelectorIndex.Proofs.Divisions
import SelectorIndex.Proofs.Selector.Bare
import SelectorIndex.Proofs.Selector.Bytes
import SelectorIndex.Proofs.Fixtures
import SelectorIndex.Proofs.NamePatterns
