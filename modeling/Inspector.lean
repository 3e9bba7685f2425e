import Inspector.Boundary.Session
import Inspector.Debuggee.Recording
import Inspector.Floating.Reading
import Inspector.NamedField
import Inspector.Proofs.Bytes.Buffer
import Inspector.Proofs.Bytes.Integers
import Inspector.Proofs.Bytes.Sequential
import Inspector.Proofs.Decimal.Magnitude
import Inspector.Proofs.Decimal.Text
import Inspector.Proofs.Decimal.Memory
import Inspector.Proofs.Decimal.Fields
import Inspector.Proofs.Debuggee.Chain
import Inspector.Proofs.Debuggee.Display
import Inspector.Proofs.Debuggee.FieldLookup
import Inspector.Proofs.Debuggee.Integer
import Inspector.Proofs.Debuggee.Walk
import Inspector.Proofs.Debuggee.Escaping
import Inspector.Proofs.Text.Utf8
import Inspector.Proofs.Debuggee.StringText
import Inspector.Proofs.Text.Unescape
import Inspector.Proofs.Text.Numerals
import Inspector.Proofs.Boundary.Packing
import Inspector.Proofs.Boundary.Agreement
import Inspector.Proofs.Boundary.Form
import Inspector.Proofs.Boundary.Transparency
import Inspector.Proofs.Boundary.Decimals
import Inspector.Proofs.Boundary.Allocation
import Inspector.Proofs.Boundary.Receiving
import Inspector.Proofs.Boundary.Numbers
import Inspector.Proofs.Enumeration.Flags
import Inspector.Proofs.Enumeration.Names
import Inspector.Proofs.Enumeration.Independent
import Inspector.Proofs.Enumeration.Widening
import Inspector.Proofs.Enumeration.StoredSearch
import Inspector.Proofs.Floating.Rounding
import Inspector.Proofs.Floating.General
import Inspector.Proofs.Boundary.Refusal
import Inspector.Proofs.Boundary.Strings
import Inspector.Proofs.Floating.Distinct
import Inspector.Proofs.Boundary.Snapshots
import Inspector.Proofs.Arrays.Dimensions
import Inspector.Proofs.Arrays.Summary
import Inspector.Proofs.Arrays.Nesting
import Inspector.Proofs.Decimal.Extraction
import Inspector.Proofs.Decimal.Unrelated
