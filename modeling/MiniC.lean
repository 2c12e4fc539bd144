import MiniC.Main
import MiniC.Scope.Pool
import MiniC.Proofs.Grammar.Agreement
import MiniC.Proofs.Grammar.Blame
import MiniC.Proofs.Grammar.Declarative.Division
import MiniC.Proofs.Grammar.Declarative.Scoping
import MiniC.Proofs.Meaning.Translation
import MiniC.Proofs.Names.Fixpoint
import MiniC.Proofs.Typing.Operands
import MiniC.Proofs.Typing.Separate
import MiniC.Proofs.Emit.Layout
import MiniC.Proofs.Scope.Clash
import MiniC.Proofs.Places.Blind
import MiniC.Proofs.Places.Faults
import MiniC.Proofs.Session.Incremental
import MiniC.Proofs.Command.CheckOnly
import MiniC.Proofs.Estree.Decode
import MiniC.Proofs.Ty.Text
import MiniC.Proofs.Names.Kept
import MiniC.Proofs.Typing.Literals
