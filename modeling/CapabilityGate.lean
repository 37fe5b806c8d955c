import CapabilityGate.Audit.Log
import CapabilityGate.Audit.Record
import CapabilityGate.Binary64
import CapabilityGate.Capability.Engine
import CapabilityGate.Capability.Name
import CapabilityGate.Capability.Pattern
import CapabilityGate.Capability.Token
import CapabilityGate.Context.Basic
import CapabilityGate.Decimal.Digits
import CapabilityGate.Decimal.Layout
import CapabilityGate.Decimal.Shortest
import CapabilityGate.Demo.Arguments
import CapabilityGate.Demo.Scenarios
import CapabilityGate.Digest.Sha256
import CapabilityGate.Fault
import CapabilityGate.Files
import CapabilityGate.Gate.Activity
import CapabilityGate.Gate.Admission
import CapabilityGate.Gate.Budget
import CapabilityGate.Gate.Catalog
import CapabilityGate.Gate.Course
import CapabilityGate.Gate.Evaluate
import CapabilityGate.Gate.Machine
import CapabilityGate.Gate.Register
import CapabilityGate.Gate.Route
import CapabilityGate.Gate.Script
import CapabilityGate.Json.Basic
import CapabilityGate.Json.Numeral
import CapabilityGate.Json.Reader
import CapabilityGate.Main
import CapabilityGate.Sandbox.ByteSize
import CapabilityGate.Sandbox.Config
import CapabilityGate.Sandbox.Duration
import CapabilityGate.Sandbox.Outcome
import CapabilityGate.Sandbox.Run
import CapabilityGate.Sandbox.Settlement
import CapabilityGate.Sandbox.Signal
import CapabilityGate.Scenario.Expr
import CapabilityGate.Scenario.Session
import CapabilityGate.Settings.Basic
import CapabilityGate.Settings.Grant
import CapabilityGate.Text.Blank
import CapabilityGate.Text.Case
import CapabilityGate.Text.CaseTable
import CapabilityGate.Text.Search
import CapabilityGate.Toml.Basic
import CapabilityGate.Toml.Number
import CapabilityGate.Toml.Reader
import CapabilityGate.Toml.Text
import CapabilityGate.Value.Basic
import CapabilityGate.Value.Primitive
import CapabilityGate.Wire.Fault
import CapabilityGate.Wire.Outcome
import CapabilityGate.Wire.Shape
import CapabilityGate.Wire.Value
import CapabilityGate.Proofs.Evaluation.Conduct
import CapabilityGate.Proofs.Admission.Listing
import CapabilityGate.Proofs.Evaluation.Evolution
import CapabilityGate.Proofs.Admission.Mediation
import CapabilityGate.Proofs.Admission.Decision
import CapabilityGate.Proofs.Register.Custody
import CapabilityGate.Proofs.Register.Revocation
import CapabilityGate.Proofs.Register.Scopes
import CapabilityGate.Proofs.Audit.Payload
import CapabilityGate.Proofs.Audit.Chain
import CapabilityGate.Proofs.Audit.Writers
import CapabilityGate.Proofs.Evaluation.Restoration
import CapabilityGate.Proofs.Binary64.Rounding
import CapabilityGate.Proofs.Decimal.Shortest
import CapabilityGate.Proofs.Wire.Magnitude
import CapabilityGate.Proofs.Wire.Numeral
import CapabilityGate.Proofs.Wire.Float
import CapabilityGate.Proofs.Wire.Document
import CapabilityGate.Proofs.Wire.Value
import CapabilityGate.Proofs.Wire.Response
import CapabilityGate.Proofs.Evaluation.SideBySide
import CapabilityGate.Proofs.Evaluation.Twins
import CapabilityGate.Proofs.Runs.Process
import CapabilityGate.Proofs.Runs.Isolation
import CapabilityGate.Proofs.Runs.Start
import CapabilityGate.Proofs.Admission.Checkpoint
import CapabilityGate.Proofs.Evaluation.Story
import CapabilityGate.Proofs.Evaluation.Narration
import CapabilityGate.Proofs.Evaluation.Telling
import CapabilityGate.Proofs.Audit.Trail
import CapabilityGate.Proofs.Evaluation.Lockstep
import CapabilityGate.Proofs.Evaluation.Likeness
import CapabilityGate.Proofs.Context.Lineage
import CapabilityGate.Proofs.Runs.Widening
import CapabilityGate.Proofs.Runs.Unrestricted
import CapabilityGate.Proofs.Runs.Accounting
import CapabilityGate.Proofs.Audit.Independence
import CapabilityGate.Proofs.Evaluation.Recursion
import CapabilityGate.Proofs.Evaluation.Progress
import CapabilityGate.Proofs.Admission.Depth
import CapabilityGate.Proofs.Admission.Exhaustion
import CapabilityGate.Proofs.Audit.Commitment
import CapabilityGate.Proofs.Capability.Compiling
import CapabilityGate.Proofs.Capability.Cutting
import CapabilityGate.Proofs.Capability.Expression
import CapabilityGate.Proofs.Wire.Codec
import CapabilityGate.Proofs.Runs.Outcome
import CapabilityGate.Proofs.Text.Fields
import CapabilityGate.Proofs.Capability.Segments
import CapabilityGate.Proofs.Capability.Stars
import CapabilityGate.Proofs.Context.Nearest
import CapabilityGate.Proofs.Context.Holdings
import CapabilityGate.Proofs.Admission.Growth
import CapabilityGate.Proofs.Audit.Verification
import CapabilityGate.Proofs.Text.Trim
import CapabilityGate.Proofs.Capability.Naming
import CapabilityGate.Proofs.Settings.Grants
import CapabilityGate.Proofs.Settings.Acceptance
import CapabilityGate.Proofs.Settings.Restriction
import CapabilityGate.Proofs.Settings.Issue
import CapabilityGate.Proofs.Lists
import CapabilityGate.Proofs.Capability.Repetition
import CapabilityGate.Proofs.Settings.ShortForm
import CapabilityGate.Proofs.Sandbox.ByteSize
import CapabilityGate.Proofs.Catalog.Registration
import CapabilityGate.Proofs.Catalog.Building
import CapabilityGate.Proofs.Catalog.Lookup
import CapabilityGate.Proofs.Text.Occurrences
import CapabilityGate.Proofs.Primitive.Methods
import CapabilityGate.Proofs.Primitive.Surface
import CapabilityGate.Proofs.Primitive.Texts
