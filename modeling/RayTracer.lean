import RayTracer.Camera
import RayTracer.Description.Basic
import RayTracer.Description.Error
import RayTracer.Description.Loading
import RayTracer.Description.Reading
import RayTracer.Frame
import RayTracer.Geometry.Quadratic
import RayTracer.Geometry.Ray
import RayTracer.Geometry.Vec3
import RayTracer.Image.Exr
import RayTracer.Image.Format
import RayTracer.Image.Png
import RayTracer.Json.Basic
import RayTracer.Json.Numeral
import RayTracer.Json.Reader
import RayTracer.Json.Token
import RayTracer.Light
import RayTracer.Main
import RayTracer.Material
import RayTracer.Number.Binary
import RayTracer.Number.Decimal
import RayTracer.Number.Power
import RayTracer.Number.Reading
import RayTracer.Number.Scalar
import RayTracer.Primitive
import RayTracer.Program.Artifact
import RayTracer.Program.CommandLine
import RayTracer.Program.Compiler
import RayTracer.Program.Directory
import RayTracer.Program.Log
import RayTracer.Program.Run
import RayTracer.Proofs.Description.Accepted
import RayTracer.Proofs.Description.Degenerate
import RayTracer.Proofs.Description.FirstFault
import RayTracer.Proofs.Geometry.CameraBasis
import RayTracer.Proofs.Geometry.ExactRoots
import RayTracer.Proofs.Geometry.ExactVectors
import RayTracer.Proofs.Geometry.Frame
import RayTracer.Proofs.Geometry.Normalize
import RayTracer.Proofs.Lists
import RayTracer.Proofs.Number.Checked
import RayTracer.Proofs.Number.CorrectRounding
import RayTracer.Proofs.Number.Digits
import RayTracer.Proofs.Number.ExactField
import RayTracer.Proofs.Number.FewestDigits
import RayTracer.Proofs.Number.Floor
import RayTracer.Proofs.Number.Magnitude
import RayTracer.Proofs.Number.Nearest
import RayTracer.Proofs.Number.Numeral
import RayTracer.Proofs.Number.Order
import RayTracer.Proofs.Number.Rounding
import RayTracer.Proofs.Number.Shortest
import RayTracer.Proofs.Number.Single
import RayTracer.Proofs.Number.Text
import RayTracer.Proofs.Number.WholeNumbers
import RayTracer.Proofs.Render.Blocks
import RayTracer.Proofs.Scene.MaterialTable
import RayTracer.Proofs.Scene.NearestHit
import RayTracer.Proofs.Scene.Occlusion
import RayTracer.Proofs.Session.CompilePool
import RayTracer.Proofs.Session.DisplayReadings
import RayTracer.Proofs.Session.FramePublication
import RayTracer.Proofs.Session.LastProgram
import RayTracer.Proofs.Session.NewestWins
import RayTracer.Proofs.Session.RenderPool
import RayTracer.Proofs.Session.SessionRun
import RayTracer.Proofs.Session.SingleFlight
import RayTracer.Proofs.Session.Snapshot
import RayTracer.Proofs.Shader.Arrays
import RayTracer.Proofs.Shader.Code
import RayTracer.Proofs.Shader.Commutes
import RayTracer.Proofs.Shader.Finite
import RayTracer.Proofs.Shader.Literals
import RayTracer.Proofs.Shader.Packing
import RayTracer.Proofs.Shader.Structure
import RayTracer.Proofs.Shader.Template
import RayTracer.Proofs.Shader.Words
import RayTracer.Proofs.Shading.Evaluators
import RayTracer.Proofs.Shading.MirrorChain
import RayTracer.Proofs.Shading.RemainingDepth
import RayTracer.Proofs.Shape.Checkerboard
import RayTracer.Proofs.Shape.ConeSurface
import RayTracer.Proofs.Shape.NearestContact
import RayTracer.Proofs.Shape.Records
import RayTracer.Proofs.Shape.Restriction
import RayTracer.Proofs.Shape.RoundSurfaces
import RayTracer.Proofs.Text.Line
import RayTracer.Proofs.Unroll.CallGraph
import RayTracer.Proofs.Unroll.Calls
import RayTracer.Proofs.Unroll.Declarations
import RayTracer.Proofs.Unroll.Directive
import RayTracer.Proofs.Unroll.Grammar
import RayTracer.Proofs.Unroll.GroupCalls
import RayTracer.Proofs.Unroll.Layout
import RayTracer.Proofs.Unroll.LevelNumbers
import RayTracer.Proofs.Unroll.LineEnds
import RayTracer.Proofs.Unroll.Meaning
import RayTracer.Proofs.Unroll.Output
import RayTracer.Proofs.Unroll.Regions
import RayTracer.Proofs.Unroll.Renaming
import RayTracer.Proofs.Unroll.ScanErrors
import RayTracer.Proofs.Unroll.WholeNames
import RayTracer.Render
import RayTracer.Scene
import RayTracer.Session.Basic
import RayTracer.Session.FrameSlot
import RayTracer.Session.ShaderSlot
import RayTracer.Shader.Build
import RayTracer.Shader.Injection
import RayTracer.Shader.Program
import RayTracer.Shader.Row
import RayTracer.Shader.Template
import RayTracer.Shader.Uniforms
import RayTracer.Shading
import RayTracer.Shape.Cone
import RayTracer.Shape.Contact
import RayTracer.Shape.Cylinder
import RayTracer.Shape.Plane
import RayTracer.Shape.Sphere
import RayTracer.Text.Line
import RayTracer.Text.Path
import RayTracer.Unroll.Call
import RayTracer.Unroll.Directive
import RayTracer.Unroll.Error
import RayTracer.Unroll.Levels
import RayTracer.Unroll.Source
