import LayoutConstraints.Attribute
import LayoutConstraints.Binary
import LayoutConstraints.Binary.Rounding
import LayoutConstraints.Decimal
import LayoutConstraints.Expression
import LayoutConstraints.Expression.Start
import LayoutConstraints.Expression.Step
import LayoutConstraints.Compilation
import LayoutConstraints.Document
import LayoutConstraints.Engine
import LayoutConstraints.Installation
import LayoutConstraints.Session
import LayoutConstraints.Proofs.Resolution
import LayoutConstraints.Proofs.LastWriter
import LayoutConstraints.Proofs.ConstantComparison
import LayoutConstraints.Proofs.Questions
import LayoutConstraints.Proofs.Atomicity
import LayoutConstraints.Proofs.Equality
import LayoutConstraints.Proofs.ActiveSet
import LayoutConstraints.Proofs.Installing
import LayoutConstraints.Proofs.Toggling
import LayoutConstraints.Proofs.Batching
import LayoutConstraints.Proofs.Widening
import LayoutConstraints.Proofs.RoundTrip
import LayoutConstraints.Proofs.NumberText
import LayoutConstraints.Proofs.PrintedForm
import LayoutConstraints.Proofs.Stores
import LayoutConstraints.Proofs.Notices
import LayoutConstraints.Proofs.Congruence
import LayoutConstraints.Proofs.Readings
import LayoutConstraints.Proofs.HostChoices
import LayoutConstraints.Proofs.Withdrawal
import LayoutConstraints.Proofs.Accounting
import LayoutConstraints.Proofs.Chaining
import LayoutConstraints.Proofs.Distribution
import LayoutConstraints.Proofs.Relating
import LayoutConstraints.Proofs.Grammar
import LayoutConstraints.Proofs.Composition
import LayoutConstraints.Proofs.Reparenting
import LayoutConstraints.Proofs.SinkContract
import LayoutConstraints.Proofs.BuiltShapes
import LayoutConstraints.Proofs.Operands
