import LayoutDesigner.Schema.Problem

/-!
# Causes of failure

Every operation that can fail says why with one value of this type; the words follow from it.
-/

namespace LayoutDesigner

/-- Why an operation could not be done. -/
inductive Fault where
  /-- An integer is beyond the greatest float. -/
  | integerTooLarge
  /-- A quotient of integers is beyond the greatest float. -/
  | quotientTooLarge
  /-- The divisor is zero. -/
  | divisionByZero
  /-- Infinity has no integer part. -/
  | integerOfInfinity
  /-- What is no number has no integer part. -/
  | integerOfNan
  /-- The text is no real numeral. -/
  | notReal (text : Text)
  /-- The text is no integer numeral. -/
  | notInteger (text : Text)
  /-- An integer numeral has more digits than are read. -/
  | numeralTooLong (digits : Nat)
  /-- An integer is beyond the range that the operation takes; the message says so. -/
  | beyondRange (message : Text)
  /-- The value is not of a type that the operation takes. -/
  | wrongType
  /-- The value lacks an operation or an attribute. -/
  | wrongMember
  /-- There is no item at the place. -/
  | outOfRange
  /-- There is no member under the key; the key is as a message shows it. -/
  | missingKey (shown : Text)
  /-- No extension kind has this name. -/
  | unknownExtensionKind (name : Text)
  /-- A record names no extension kind; the name is as a message shows it. -/
  | unknownExtensionRecord (shown : Text)
  /-- A node with this id is there already. -/
  | duplicateId (id : Text)
  /-- A node record is no object. -/
  | recordNotObject
  /-- A node record names no element kind; the name is as a message shows it. -/
  | unknownRecordType (shown : Text)
  /-- A node record has no id. -/
  | recordWithoutId
  /-- A snapshot breaks these rules of its schema. -/
  | unusableSnapshot (problems : List Schema.Problem)
  /-- A snapshot file holds no document. -/
  | unreadableSnapshot
  /-- Bytes are no text. -/
  | undecodable
  /-- A text has code points that cannot be encoded. -/
  | unencodable
  /-- A document is nested too deeply. -/
  | tooDeep
  /-- The operation has no end. -/
  | endless
  /-- The action raised this error of its own. -/
  | raised (message : Text)

namespace Fault

/-- The greatest number of digits of an integer numeral. -/
def digitLimit : Nat := 4300

/-- The words of a fault; empty where it is told by its kind alone. -/
def message : Fault → Text
  | .integerTooLarge => "int too large to convert to float"
  | .quotientTooLarge => "integer division result too large for a float"
  | .divisionByZero => "division by zero"
  | .integerOfInfinity => "cannot convert float infinity to integer"
  | .integerOfNan => "cannot convert float NaN to integer"
  | .notReal text => "could not convert string to float: " ++ text.quoted
  | .notInteger text => "invalid literal for int() with base 10: " ++ text.quoted
  | .numeralTooLong digits =>
    "Exceeds the limit (" ++ Text.ofNat digitLimit ++
      " digits) for integer string conversion: value has " ++ Text.ofNat digits ++
      " digits; use sys.set_int_max_str_digits() to increase the limit"
  | .beyondRange text => text
  | .wrongType => ""
  | .wrongMember => ""
  | .outOfRange => ""
  | .missingKey shown => shown
  | .unknownExtensionKind name => Text.quoted ("Unknown extension kind: " ++ name)
  | .unknownExtensionRecord shown => "Unknown extension kind: " ++ shown
  | .duplicateId id => "Duplicate node id: " ++ id
  | .recordNotObject => "node record is not an object"
  | .unknownRecordType shown => "unknown node type: " ++ shown
  | .recordWithoutId => "node record has no id"
  | .unusableSnapshot problems => Text.join "; " (problems.map Schema.Problem.message)
  | .unreadableSnapshot => ""
  | .undecodable => ""
  | .unencodable => ""
  | .tooDeep => ""
  | .endless => ""
  | .raised text => text

end Fault

end LayoutDesigner
