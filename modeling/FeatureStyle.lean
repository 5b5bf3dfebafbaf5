import FeatureStyle.Expression.Cache
import FeatureStyle.Expression.Reentrant
import FeatureStyle.Main
import FeatureStyle.Subject.Features
import FeatureStyle.Proofs.Scratch.Denotation
import FeatureStyle.Proofs.Subject.Lockstep
import FeatureStyle.Proofs.Eval.Simulation
import FeatureStyle.Proofs.Eval.Transparency
import FeatureStyle.Proofs.Tree.Outcome
import FeatureStyle.Proofs.Tree.Run
import FeatureStyle.Proofs.Tree.Phrase
import FeatureStyle.Proofs.Tree.Soundness
import FeatureStyle.Proofs.Token.Tokenize
import FeatureStyle.Proofs.Tree.Completeness
import FeatureStyle.Proofs.Tree.Height
import FeatureStyle.Proofs.Tree.Tower
import FeatureStyle.Proofs.Numeric.Rational
import FeatureStyle.Proofs.Shader.Glsl
import FeatureStyle.Proofs.Shader.Formula
import FeatureStyle.Proofs.Shader.Reading
import FeatureStyle.Proofs.Shader.Agreement
import FeatureStyle.Proofs.Tree.Path
import FeatureStyle.Proofs.Tree.Leaf
import FeatureStyle.Proofs.Token.Span
import FeatureStyle.Proofs.Expr.Part
import FeatureStyle.Proofs.Expr.Assembly
import FeatureStyle.Proofs.Expr.Namespace
import FeatureStyle.Proofs.Expr.Origin
import FeatureStyle.Proofs.Text.Sign
import FeatureStyle.Proofs.Numeric.Sign
import FeatureStyle.Proofs.Expr.Spelling
import FeatureStyle.Proofs.Shader.Outcome
import FeatureStyle.Proofs.Shader.Layout
import FeatureStyle.Proofs.Shader.Sign
import FeatureStyle.Proofs.Shader.Reference
import FeatureStyle.Proofs.Source.Segment
import FeatureStyle.Proofs.Expr.Hygiene
import FeatureStyle.Proofs.Subject.Ending
import FeatureStyle.Proofs.Eval.Failure
import FeatureStyle.Proofs.Expr.WellFormed
import FeatureStyle.Proofs.Expression.Session
import FeatureStyle.Proofs.Numeric.One
import FeatureStyle.Proofs.Shader.Quiet
import FeatureStyle.Proofs.Shader.Opacity
import FeatureStyle.Proofs.Eval.Correspondence
import FeatureStyle.Proofs.Scratch.Operation
import FeatureStyle.Proofs.Scratch.Stored
import FeatureStyle.Proofs.Eval.Machine
import FeatureStyle.Proofs.Eval.Recording
import FeatureStyle.Proofs.Eval.Accounting
import FeatureStyle.Proofs.Expression.InPlace
import FeatureStyle.Proofs.Expression.Reentrance
import FeatureStyle.Proofs.Token.Word
import FeatureStyle.Proofs.Tree.Member
import FeatureStyle.Proofs.Expr.Synonym
import FeatureStyle.Proofs.Shader.Support
import FeatureStyle.Proofs.Token.Tiling
import FeatureStyle.Proofs.Token.Number
import FeatureStyle.Proofs.Token.Operator
import FeatureStyle.Proofs.Token.Insertion
import FeatureStyle.Proofs.Subject.Transcript
import FeatureStyle.Proofs.Eval.Influence
import FeatureStyle.Proofs.Source.Writing
import FeatureStyle.Proofs.Numeric.RoundTrip
import FeatureStyle.Proofs.Fixture.Properties
import FeatureStyle.Proofs.Command.Eval
import FeatureStyle.Proofs.Token.Registration
import FeatureStyle.Proofs.Tree.Registration
import FeatureStyle.Proofs.Numeric.Nearest
import FeatureStyle.Proofs.Numeric.Grammar
import FeatureStyle.Proofs.Numeric.Acceptance
import FeatureStyle.Proofs.Expr.Folding
import FeatureStyle.Proofs.Value.Comparison
import FeatureStyle.Proofs.Eval.Result
import FeatureStyle.Proofs.Eval.Vector
import FeatureStyle.Proofs.Eval.Template
import FeatureStyle.Proofs.Numeric.Index
import FeatureStyle.Proofs.Eval.Item
import FeatureStyle.Proofs.Shader.Constant
import FeatureStyle.Proofs.Color.Hue
import FeatureStyle.Proofs.Shader.Accumulation
import FeatureStyle.Proofs.Shader.ConstantColor
import FeatureStyle.Proofs.Token.Behind
import FeatureStyle.Proofs.Token.Mark
import FeatureStyle.Proofs.Tree.Transport
import FeatureStyle.Proofs.Tree.Siblings
import FeatureStyle.Proofs.Token.Arrival
import FeatureStyle.Proofs.Tree.Refusal
import FeatureStyle.Proofs.Source.Edit
import FeatureStyle.Proofs.Expr.Seam
import FeatureStyle.Proofs.Expr.Fault
import FeatureStyle.Proofs.Expr.Position
import FeatureStyle.Proofs.Settings.Expansion
import FeatureStyle.Proofs.Fixture.Conversion
import FeatureStyle.Proofs.Token.Escape
import FeatureStyle.Proofs.Tree.Counter
