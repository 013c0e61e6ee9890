import WebAssembly.Attempt
import WebAssembly.Features
import WebAssembly.Module
import WebAssembly.Page

/-!
# Faults

A fault is a rule that a module breaks.  Each fault belongs to one of six kinds, and its
message is the text of the kind followed by what is particular to the fault.
-/

namespace WebAssembly

/-- The kinds of faults. -/
inductive FaultKind
  /-- An index lies beyond the end of its index space. -/
  | outOfIndex
  /-- A value lies outside its range, or something is missing. -/
  | outOfRange
  /-- An immutable global is set, or a mutable one is read by a constant expression. -/
  | mutability
  /-- An instruction needs a table, a memory or a feature that is not there. -/
  | preCondition
  /-- Operands do not have the types that are asked for. -/
  | argumentTypes
  /-- Results do not have the types that are asked for. -/
  | resultTypes
  deriving DecidableEq, Repr, Inhabited

namespace FaultKind

def text : FaultKind → String
  | .outOfIndex => "index out of range"
  | .outOfRange => "value out of range"
  | .mutability => "global mutability mismatch"
  | .preCondition => "precondition not met"
  | .argumentTypes => "type mismatch of arguments"
  | .resultTypes => "type mismatch of results"

end FaultKind

/-- What limits count. -/
inductive SizeUnit
  | elements
  | pages
  deriving DecidableEq, Repr, Inhabited

namespace SizeUnit

def name : SizeUnit → String
  | .elements => "elements"
  | .pages => "pages"

end SizeUnit

/-- A broken rule. -/
inductive Fault
  | typeIndex (index : UInt32)
  | functionIndex (index : UInt32)
  | localIndex (index : UInt32)
  | globalIndex (index : UInt32)
  | labelIndex (index : UInt32)
  | tableIndex (index : UInt32)
  | memoryIndex (index : UInt32)
  | exportIndex (kind : ExternKind) (index : UInt32)
  | constantGlobalIndex (index : UInt32)
  | sectionLengths (functions code : Nat)
  | missingCode
  | missingFunctionType
  | missingImport
  | missingGlobalType
  | missingTableType
  | missingLimits
  | missingExport
  | missingElement
  | missingData
  | valueType (code : UInt8)
  | externKind (code : UInt8)
  | elementType (code : UInt8)
  | opcode (code : UInt8)
  | multipleResults
  | blockType (type : FuncType)
  | minOver (min : UInt32) (unit : SizeUnit) (bound : UInt32)
  | maxOver (max : UInt32) (unit : SizeUnit) (bound : UInt32)
  | minOverMax (min max : UInt32)
  | memoryOverCap (min cap : UInt32)
  | multipleTables
  | multipleMemories
  | duplicateExport (name : String)
  | alignment
  | notConstant (opcode : Opcode)
  | constantReadsMutable (index : UInt32)
  | setsImmutable (index : UInt32)
  | unknownTable
  | tableNotFuncref
  | unknownMemory
  | signExtensionDisabled (op : UnaryOp)
  | operands (expected actual : List ValueType)
  | missingOperands (types : List ValueType)
  | branchTarget (label : UInt32) (types : List ValueType) (default : UInt32)
      (defaultTypes : List ValueType)
  | startParams (type : FuncType)
  | results (expected actual : List ValueType)
  | startResults (type : FuncType)
  | missingConstant
  | constantType (actual expected : ValueType)
  /-- A fault of the instruction at a position of a sequence. -/
  | inside (instruction : Opcode) (position : Nat) (cause : Fault)
  /-- A fault of the second arm of a conditional. -/
  | insideElse (cause : Fault)
  deriving DecidableEq, Repr, Inhabited

namespace Fault

def kind : Fault → FaultKind
  | .typeIndex _ | .functionIndex _ | .localIndex _ | .globalIndex _ | .labelIndex _
  | .tableIndex _
  | .memoryIndex _ | .exportIndex _ _ | .constantGlobalIndex _ | .sectionLengths _ _
  | .missingCode =>
    .outOfIndex
  | .missingFunctionType | .missingImport | .missingGlobalType | .missingTableType
  | .missingLimits
  | .missingExport | .missingElement | .missingData | .valueType _ | .externKind _
  | .elementType _
  | .opcode _ | .multipleResults | .blockType _ | .minOver _ _ _ | .maxOver _ _ _
  | .minOverMax _ _
  | .memoryOverCap _ _ | .multipleTables | .multipleMemories | .duplicateExport _
  | .alignment
  | .notConstant _ =>
    .outOfRange
  | .constantReadsMutable _ | .setsImmutable _ => .mutability
  | .unknownTable | .tableNotFuncref | .unknownMemory | .signExtensionDisabled _ =>
    .preCondition
  | .operands _ _ | .missingOperands _ | .branchTarget _ _ _ _ | .startParams _ =>
    .argumentTypes
  | .results _ _ | .startResults _ | .missingConstant | .constantType _ _ =>
    .resultTypes
  | .inside _ _ cause => cause.kind
  | .insideElse cause => cause.kind

def detail : Fault → String
  | .typeIndex index => s!"type index {index}"
  | .functionIndex index => s!"function index {index}"
  | .localIndex index => s!"local index {index}"
  | .globalIndex index => s!"global index {index}"
  | .labelIndex index => s!"label {index}"
  | .tableIndex index => s!"table index {index}"
  | .memoryIndex index => s!"memory index {index}"
  | .exportIndex kind index => s!"{kind.name} index {index}"
  | .constantGlobalIndex index => s!"global index {index} in constant expression"
  | .sectionLengths functions code =>
    s!"function and code section have inconsistent lengths: {functions} != {code}"
  | .missingCode => "missing code"
  | .missingFunctionType => "nil function type"
  | .missingImport => "missing import"
  | .missingGlobalType => "missing global type"
  | .missingTableType => "missing table type"
  | .missingLimits => "missing limits"
  | .missingExport => "missing export"
  | .missingElement => "missing element segment"
  | .missingData => "missing data segment"
  | .valueType code => s!"invalid value type {Text.hexMarked code.toNat}"
  | .externKind code => s!"invalid kind {Text.hexMarked code.toNat}"
  | .elementType code => s!"invalid table element type {Text.hexMarked code.toNat}"
  | .opcode code => s!"unknown opcode {Text.hexMarked code.toNat}"
  | .multipleResults =>
    s!"multiple result types invalid as {Features.multiValue.disabledText}"
  | .blockType type =>
    s!"block type {type.text} invalid as {Features.multiValue.disabledText}"
  | .minOver min unit bound => s!"min {min} {unit.name} over {bound}"
  | .maxOver max unit bound => s!"max {max} {unit.name} over {bound}"
  | .minOverMax min max => s!"min {min} > max {max}"
  | .memoryOverCap min cap =>
    s!"min {min} pages ({Page.sizeText min}) over the limit of {cap} pages"
  | .multipleTables => "multiple tables"
  | .multipleMemories => "multiple memories"
  | .duplicateExport name => s!"duplicate export name {Text.quoted name}"
  | .alignment => "alignment must not be larger than natural"
  | .notConstant op => s!"{op.name} is not a constant instruction"
  | .constantReadsMutable index => s!"constant expression reads mutable global {index}"
  | .setsImmutable index => s!"global.set on immutable global {index}"
  | .unknownTable => "unknown table"
  | .tableNotFuncref => "table is not funcref"
  | .unknownMemory => "unknown memory"
  | .signExtensionDisabled op =>
    s!"{op.name} invalid as {Features.signExtension.disabledText}"
  | .operands expected actual =>
    s!"expected {ValueType.listText expected}, but stack has {ValueType.listText actual}"
  | .missingOperands types =>
    s!"not enough values on the stack, missing {ValueType.listText types}"
  | .branchTarget label types default defaultTypes =>
    s!"label {label} has {ValueType.listText types}, "
      ++ s!"but default label {default} has {ValueType.listText defaultTypes}"
  | .startParams type => s!"start function must not take parameters: {type.text}"
  | .results expected actual =>
    s!"expected {ValueType.listText expected}, but have {ValueType.listText actual}"
  | .startResults type => s!"start function must not return values: {type.text}"
  | .missingConstant => "missing constant expression"
  | .constantType actual expected =>
    s!"constant expression has type {actual.name}, but {expected.name} is required"
  | .inside _ _ cause => cause.detail
  | .insideElse cause => cause.detail

/-- Where in a body a fault lies, from the outside in. -/
def place : Fault → String
  | .inside instruction position cause =>
    s!"{instruction.name}[{position}]: " ++ cause.place
  | .insideElse cause => "else: " ++ cause.place
  | _ => ""

def message (fault : Fault) : String :=
  fault.place ++ fault.kind.text ++ ": " ++ fault.detail

end Fault

abbrev Check (α : Type) := Attempt Fault α

end WebAssembly
