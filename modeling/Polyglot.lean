import Polyglot.Annotation
import Polyglot.Main
import Polyglot.Proofs.Assignability
import Polyglot.Proofs.DeclarationOrder
import Polyglot.Proofs.ImportLines
import Polyglot.Proofs.EnumNumbers
import Polyglot.Proofs.HeaderSource
import Polyglot.Proofs.MemberNames
import Polyglot.Proofs.Boxing
import Polyglot.Proofs.LambdaBodies
import Polyglot.Proofs.NumericLiterals
import Polyglot.Proofs.CompleteBindings
import Polyglot.Proofs.TemplateGrouping
import Polyglot.Proofs.TemplateLevel
import Polyglot.Proofs.KeptCalls
import Polyglot.Proofs.WeakFields.Locking
import Polyglot.Proofs.Captures
import Polyglot.Proofs.FormatStrings
import Polyglot.Proofs.ExtensionCalls
import Polyglot.Proofs.DeclaredNames
import Polyglot.Proofs.HeldNames
import Polyglot.Proofs.LiteralTypes
import Polyglot.Proofs.LocalNames
import Polyglot.Proofs.MixedOperators
import Polyglot.Proofs.LoopContinues
import Polyglot.Proofs.NearestFirst
import Polyglot.Proofs.IndexedTypes
import Polyglot.Proofs.FreshNames
import Polyglot.Proofs.Substitution
import Polyglot.Proofs.BareCasts
