import TypedLisp.Checker.Depth
import TypedLisp.Main
import TypedLisp.Proofs.Decoding
import TypedLisp.Proofs.FailedClasses
import TypedLisp.Proofs.Frame
import TypedLisp.Proofs.Interning
import TypedLisp.Proofs.Listing
import TypedLisp.Proofs.Ordering
import TypedLisp.Proofs.SlotReuse
import TypedLisp.Proofs.Representation
import TypedLisp.Proofs.Lexemes
import TypedLisp.Proofs.Lexing
import TypedLisp.Proofs.NumberText
import TypedLisp.Proofs.Reading
import TypedLisp.Proofs.RoundTrip
import TypedLisp.Proofs.Declarations
import TypedLisp.Proofs.Rollback
import TypedLisp.Proofs.Parentheses
import TypedLisp.Proofs.Blocks
import TypedLisp.Proofs.Builtins
import TypedLisp.Proofs.Comparison
import TypedLisp.Proofs.Calls
import TypedLisp.Proofs.Unions
import TypedLisp.Proofs.ScopeLifetimes
import TypedLisp.Proofs.Instantiation
import TypedLisp.Proofs.Instances
import TypedLisp.Proofs.Substitution
import TypedLisp.Proofs.TemplateNames
import TypedLisp.Proofs.Recursion
import TypedLisp.Proofs.Classification
import TypedLisp.Proofs.FunctionForms
import TypedLisp.Proofs.ListItems
import TypedLisp.Proofs.SourceLines
import TypedLisp.Proofs.Carets
import TypedLisp.Proofs.Patterns
