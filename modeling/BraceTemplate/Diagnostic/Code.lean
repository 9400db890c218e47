import BraceTemplate.Diagnostic.Severity

/- The codes of diagnostics. Each has a name that never changes, the part of the pipeline
   that reports it, and the severity it is reported with unless a mode says otherwise. -/
namespace BraceTemplate

inductive Code where
  | lexError
  | parseError
  | typeMismatch
  | unknownType
  | requiredValueMissing
  | stringTooShort
  | stringTooLong
  | invalidEnumValue
  | patternMismatch
  | invalidPattern
  | expressionSyntax
  | invalidVariablePath
  | unknownFilter
  | filterPlatformIncompatible
  | missingFilterParameter
  | invalidFilterArgument
  | tooManyFilterArguments
  | unknownComponent
  | missingRequiredProp
  | invalidPropType
  | leafComponentChildren
  | componentPlatformIncompatible
  | invalidRoot
  | invalidTagName
  | invalidAttributeName
  | reservedWord
  | missingHeaderType
  | unknownCms
  | invalidCmsSet
  | unknownPlatformType
  | unknownPlatformTarget
  | invalidVersion
  | missingEscaping
  deriving DecidableEq, Repr

/-- What is published about a code. -/
structure CodeInfo where
  subsystem : String
  title : String
  template : String
  severity : Severity
  since : String
  deriving DecidableEq, Repr

namespace Code

/-- Every code, in the order of the catalog. -/
def all : List Code :=
  [.lexError, .parseError, .typeMismatch, .unknownType, .requiredValueMissing,
   .stringTooShort, .stringTooLong, .invalidEnumValue, .patternMismatch, .invalidPattern,
   .expressionSyntax, .invalidVariablePath, .unknownFilter, .filterPlatformIncompatible,
   .missingFilterParameter, .invalidFilterArgument, .tooManyFilterArguments,
   .unknownComponent, .missingRequiredProp, .invalidPropType, .leafComponentChildren,
   .componentPlatformIncompatible, .invalidRoot, .invalidTagName, .invalidAttributeName,
   .reservedWord, .missingHeaderType, .unknownCms, .invalidCmsSet, .unknownPlatformType,
   .unknownPlatformTarget, .invalidVersion, .missingEscaping]

def name : Code → String
  | .lexError => "LEX_ERROR"
  | .parseError => "PARSE_ERROR"
  | .typeMismatch => "TYPE_MISMATCH"
  | .unknownType => "UNKNOWN_TYPE"
  | .requiredValueMissing => "REQUIRED_VALUE_MISSING"
  | .stringTooShort => "STRING_TOO_SHORT"
  | .stringTooLong => "STRING_TOO_LONG"
  | .invalidEnumValue => "INVALID_ENUM_VALUE"
  | .patternMismatch => "PATTERN_MISMATCH"
  | .invalidPattern => "INVALID_PATTERN"
  | .expressionSyntax => "EXPRESSION_SYNTAX"
  | .invalidVariablePath => "INVALID_VARIABLE_PATH"
  | .unknownFilter => "UNKNOWN_FILTER"
  | .filterPlatformIncompatible => "FILTER_PLATFORM_INCOMPATIBLE"
  | .missingFilterParameter => "MISSING_FILTER_PARAMETER"
  | .invalidFilterArgument => "INVALID_FILTER_ARGUMENT"
  | .tooManyFilterArguments => "TOO_MANY_FILTER_ARGUMENTS"
  | .unknownComponent => "UNKNOWN_COMPONENT"
  | .missingRequiredProp => "MISSING_REQUIRED_PROP"
  | .invalidPropType => "INVALID_PROP_TYPE"
  | .leafComponentChildren => "LEAF_COMPONENT_CHILDREN"
  | .componentPlatformIncompatible => "COMPONENT_PLATFORM_INCOMPATIBLE"
  | .invalidRoot => "INVALID_ROOT"
  | .invalidTagName => "INVALID_TAG_NAME"
  | .invalidAttributeName => "INVALID_ATTRIBUTE_NAME"
  | .reservedWord => "RESERVED_WORD"
  | .missingHeaderType => "MISSING_HEADER_TYPE"
  | .unknownCms => "UNKNOWN_CMS"
  | .invalidCmsSet => "INVALID_CMS_SET"
  | .unknownPlatformType => "UNKNOWN_PLATFORM_TYPE"
  | .unknownPlatformTarget => "UNKNOWN_PLATFORM_TARGET"
  | .invalidVersion => "INVALID_VERSION"
  | .missingEscaping => "MISSING_ESCAPING"

def info : Code → CodeInfo
  | .lexError =>
    ⟨"lexer", "Lexical Error",
      "The template text could not be tokenized", .error, "0.1.0"⟩
  | .parseError =>
    ⟨"parser", "Parse Error",
      "The token stream does not form a valid document", .error, "0.1.0"⟩
  | .typeMismatch =>
    ⟨"types", "Type Mismatch",
      "Expected a value of type \x7bexpected\x7d, got \x7bgot\x7d", .error, "0.1.0"⟩
  | .unknownType =>
    ⟨"types", "Unknown Type",
      "Type '\x7btype\x7d' is not a known primitive or extended type", .error, "0.1.0"⟩
  | .requiredValueMissing =>
    ⟨"schema", "Required Value Missing",
      "A value is required but none was given", .error, "0.1.0"⟩
  | .stringTooShort =>
    ⟨"schema", "String Too Short",
      "String length \x7blength\x7d is less than minimum \x7bmin\x7d", .error, "0.1.0"⟩
  | .stringTooLong =>
    ⟨"schema", "String Too Long",
      "String length \x7blength\x7d is greater than maximum \x7bmax\x7d", .error, "0.1.0"⟩
  | .invalidEnumValue =>
    ⟨"schema", "Invalid Enum Value",
      "Value must be one of: \x7ballowed\x7d", .error, "0.1.0"⟩
  | .patternMismatch =>
    ⟨"schema", "Pattern Mismatch",
      "String does not match pattern \x7bpattern\x7d", .error, "0.1.0"⟩
  | .invalidPattern =>
    ⟨"schema", "Invalid Pattern",
      "Schema pattern \x7bpattern\x7d is not a valid regular expression", .error, "0.1.0"⟩
  | .expressionSyntax =>
    ⟨"expressions", "Expression Syntax Error",
      "Interpolation expression could not be parsed", .error, "0.1.0"⟩
  | .invalidVariablePath =>
    ⟨"expressions", "Invalid Variable Path",
      "Variable path \x7bpath\x7d is malformed", .error, "0.1.0"⟩
  | .unknownFilter =>
    ⟨"filters", "Unknown Filter",
      "Filter \x7bname\x7d is not registered", .error, "0.1.0"⟩
  | .filterPlatformIncompatible =>
    ⟨"filters", "Filter Not Available On Platform",
      "Filter \x7bname\x7d is not available on platform \x7bplatform\x7d", .error, "0.1.0"⟩
  | .missingFilterParameter =>
    ⟨"filters", "Missing Filter Parameter",
      "Filter \x7bname\x7d requires parameter \x7bparam\x7d", .error, "0.1.0"⟩
  | .invalidFilterArgument =>
    ⟨"filters", "Invalid Filter Argument",
      "Argument \x7bparam\x7d of filter \x7bname\x7d has the wrong type", .error, "0.1.0"⟩
  | .tooManyFilterArguments =>
    ⟨"filters", "Too Many Filter Arguments",
      "Filter \x7bname\x7d accepts at most \x7bcount\x7d arguments", .warning, "0.1.0"⟩
  | .unknownComponent =>
    ⟨"components", "Unknown Component",
      "Unknown component: \x7bname\x7d", .warning, "0.1.0"⟩
  | .missingRequiredProp =>
    ⟨"components", "Missing Required Prop",
      "Component \x7bname\x7d is missing required prop \x7bprop\x7d", .error, "0.1.0"⟩
  | .invalidPropType =>
    ⟨"components", "Invalid Prop Type",
      "Attribute \x7bprop\x7d of component \x7bname\x7d has the wrong type", .error, "0.1.0"⟩
  | .leafComponentChildren =>
    ⟨"components", "Leaf Component With Children",
      "\x7bname\x7d is a leaf component and cannot contain children", .error, "0.1.0"⟩
  | .componentPlatformIncompatible =>
    ⟨"components", "Component Not Available On Platform",
      "Component \x7bname\x7d is not available on platform \x7bplatform\x7d", .error, "0.1.0"⟩
  | .invalidRoot =>
    ⟨"structure", "Invalid Root Node",
      "The root node must be a document", .error, "0.1.0"⟩
  | .invalidTagName =>
    ⟨"structure", "Invalid Tag Name",
      "Tag name \x7bname\x7d is not a valid identifier", .error, "0.1.0"⟩
  | .invalidAttributeName =>
    ⟨"structure", "Invalid Attribute Name",
      "Attribute name \x7bname\x7d is not a valid identifier", .error, "0.1.0"⟩
  | .reservedWord =>
    ⟨"structure", "Reserved Word",
      "\x7bname\x7d is a reserved word", .error, "0.1.0"⟩
  | .missingHeaderType =>
    ⟨"declarations", "Missing Header Type",
      "Header declaration \x7bname\x7d requires a type attribute", .error, "0.1.0"⟩
  | .unknownCms =>
    ⟨"declarations", "Unknown CMS",
      "CMS \x7bname\x7d is not supported", .error, "0.1.0"⟩
  | .invalidCmsSet =>
    ⟨"declarations", "Invalid CMS Capability",
      "CMS capability \x7bname\x7d is not recognised", .error, "0.1.0"⟩
  | .unknownPlatformType =>
    ⟨"declarations", "Unknown Platform Type",
      "Platform type \x7bname\x7d is not recognised", .error, "0.1.0"⟩
  | .unknownPlatformTarget =>
    ⟨"declarations", "Unknown Platform Target",
      "Platform target \x7bname\x7d is not registered", .error, "0.1.0"⟩
  | .invalidVersion =>
    ⟨"declarations", "Invalid Version",
      "Version \x7bversion\x7d is not a semantic version", .error, "0.1.0"⟩
  | .missingEscaping =>
    ⟨"security", "Missing Escaping",
      "Interpolation \x7bexpression\x7d is output without an escaping filter", .error, "0.1.0"⟩

/-- The code of a name. -/
def ofName? (name : String) : Option Code := all.find? (·.name = name)

end Code
end BraceTemplate
