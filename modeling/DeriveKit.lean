import DeriveKit.Code.Trace
import DeriveKit.Expansion.Report
import DeriveKit.Generator.Echo
import DeriveKit.Generator.Locator
import DeriveKit.Generator.Printer
import DeriveKit.Proofs.ArgumentShape
import DeriveKit.Proofs.AttributeLookup
import DeriveKit.Proofs.Decoding
import DeriveKit.Proofs.DerivedNames
import DeriveKit.Proofs.DottedNames
import DeriveKit.Proofs.ExprAttributes
import DeriveKit.Proofs.ExprText
import DeriveKit.Proofs.FailurePlaces
import DeriveKit.Proofs.FirstFault
import DeriveKit.Proofs.Flushing
import DeriveKit.Proofs.Generated
import DeriveKit.Proofs.Grammar
import DeriveKit.Proofs.Hygiene
import DeriveKit.Proofs.Instantiation
import DeriveKit.Proofs.IntegerLiteral
import DeriveKit.Proofs.LastRegistered
import DeriveKit.Proofs.ListLiterals
import DeriveKit.Proofs.ModuleText
import DeriveKit.Proofs.Parameters
import DeriveKit.Proofs.Placeholders
import DeriveKit.Proofs.QuotedText
import DeriveKit.Proofs.Reduction
import DeriveKit.Proofs.Renaming
import DeriveKit.Proofs.Resolution
import DeriveKit.Proofs.StandardNames
import DeriveKit.Proofs.SuppressedCount
import DeriveKit.Proofs.TagHash
import DeriveKit.Proofs.Traces
import DeriveKit.Proofs.TypeText
import DeriveKit.Proofs.Unavailable
import DeriveKit.Proofs.UnitPath
import DeriveKit.Proofs.WirePayload
import DeriveKit.Wire.Failure
import DeriveKit.Wire.Payload
import DeriveKit.Wire.Report
import DeriveKit.Wire.Request
