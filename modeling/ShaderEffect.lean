import ShaderEffect.Diagnostic
import ShaderEffect.Intrinsic.Signature
import ShaderEffect.Json.Printer
import ShaderEffect.Json.Reader
import ShaderEffect.Semantics
import ShaderEffect.Stage
import ShaderEffect.Text.Uppercase
import ShaderEffect.Tree.Resolution
import ShaderEffect.Tree.Construct
import ShaderEffect.Tree.Encode
import ShaderEffect.Tree.Decode
import ShaderEffect.Effect.Reference
import ShaderEffect.Effect.Build
import ShaderEffect.Scope
import ShaderEffect.Check
import ShaderEffect.Shader.Unit
import ShaderEffect.Package.Pack
import ShaderEffect.Main
import ShaderEffect.Proofs.Node
import ShaderEffect.Proofs.Checked
import ShaderEffect.Proofs.Body
import ShaderEffect.Proofs.Layout
import ShaderEffect.Proofs.Model
import ShaderEffect.Proofs.Safety
import ShaderEffect.Proofs.Agreement
import ShaderEffect.Proofs.Writable
import ShaderEffect.Proofs.TypeName
import ShaderEffect.Proofs.Names
import ShaderEffect.Proofs.Coverage
import ShaderEffect.Proofs.Asset
import ShaderEffect.Proofs.Formula
import ShaderEffect.Proofs.Product
import ShaderEffect.Proofs.Trim
import ShaderEffect.Proofs.Interchange
import ShaderEffect.Proofs.Site
import ShaderEffect.Proofs.BlockScope
import ShaderEffect.Proofs.Build
import ShaderEffect.Proofs.Shape
import ShaderEffect.Proofs.Helper
import ShaderEffect.Proofs.Fields
import ShaderEffect.Proofs.Binding
import ShaderEffect.Proofs.Interface
import ShaderEffect.Proofs.Stages
import ShaderEffect.Proofs.Argument
import ShaderEffect.Proofs.Packing
import ShaderEffect.Proofs.Hygiene
import ShaderEffect.Proofs.Failure
import ShaderEffect.Proofs.Path
import ShaderEffect.Proofs.BareType
import ShaderEffect.Proofs.RewrittenTree
import ShaderEffect.Proofs.RewrittenScope
import ShaderEffect.Proofs.RewrittenText
import ShaderEffect.Proofs.BareEffect
import ShaderEffect.Proofs.Qualification
import ShaderEffect.Proofs.Folding
import ShaderEffect.Proofs.Index
import ShaderEffect.Proofs.StepText
import ShaderEffect.Proofs.SideEffect
import ShaderEffect.Proofs.Parentheses
import ShaderEffect.Proofs.Overload
import ShaderEffect.Proofs.Inference
import ShaderEffect.Proofs.Brackets
import ShaderEffect.Proofs.Spelling
import ShaderEffect.Proofs.Grouping
import ShaderEffect.Proofs.Nesting
import ShaderEffect.Proofs.Braces
