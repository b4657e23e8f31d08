import PrefixPattern.Main
import PrefixPattern.Trie.Summary
import PrefixPattern.Proofs.Trie.Shape
import PrefixPattern.Proofs.Regex.Run
import PrefixPattern.Proofs.Regex.Search
import PrefixPattern.Proofs.Regex.Language
import PrefixPattern.Proofs.Fragment.Reading
import PrefixPattern.Proofs.Pattern.Exactness
import PrefixPattern.Proofs.Fragment.Nesting
import PrefixPattern.Proofs.Pattern.Verification
import PrefixPattern.Proofs.Lines
import PrefixPattern.Proofs.Lines.OnePerLine
import PrefixPattern.Proofs.Lines.Validity
import PrefixPattern.Proofs.Fragment.Order
import PrefixPattern.Proofs.Pattern.Canonical
import PrefixPattern.Proofs.Regex.Parentheses
import PrefixPattern.Proofs.Pattern.Splicing
import PrefixPattern.Proofs.Pattern.Repeating
import PrefixPattern.Proofs.Verify
import PrefixPattern.Proofs.Pattern.SafeRegion
import PrefixPattern.Proofs.Fragment.Grammar
import PrefixPattern.Proofs.Pattern.Derivation
import PrefixPattern.Proofs.Trie.Operations
import PrefixPattern.Proofs.NameMap
import PrefixPattern.Proofs.Program.Result
import PrefixPattern.Proofs.Program.Selection
import PrefixPattern.Proofs.CommandLine.Requests
import PrefixPattern.Proofs.Program.Agreement
import PrefixPattern.Proofs.Program.Failure
import PrefixPattern.Proofs.Fragment.Characters
import PrefixPattern.Proofs.Report.Lines
import PrefixPattern.Proofs.Program.Lines
import PrefixPattern.Proofs.Json.Reader
import PrefixPattern.Proofs.Json.RoundTrip
import PrefixPattern.Proofs.Report.Objects
import PrefixPattern.Proofs.Fragment.Recursion
import PrefixPattern.Proofs.Discovery
import PrefixPattern.Proofs.Discovery.Above
import PrefixPattern.Proofs.Pattern.Facts
import PrefixPattern.Proofs.Config.UnknownKeys
import PrefixPattern.Proofs.Trie.Places
import PrefixPattern.Proofs.Trie.Growth
import PrefixPattern.Proofs.Fragment.Comparison
import PrefixPattern.Proofs.Pattern.Forcing
import PrefixPattern.Proofs.Pattern.Escaping
import PrefixPattern.Proofs.Fragment.Marks
import PrefixPattern.Proofs.Pattern.Factoring
import PrefixPattern.Proofs.Path.Route
