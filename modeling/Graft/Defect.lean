import Graft.Id
import Graft.Text.Quoted
import Graft.Text.Utf8

/-!
# Defects of a module

What makes bytes, or the tables read from them, no module.
-/

namespace Graft

/-- The kinds of flag words. -/
inductive FlagsOwner where
  | type | method | field
  deriving DecidableEq, Repr

/-- How messages call the owner of flags. -/
def FlagsOwner.text : FlagsOwner → String
  | .type => "type"
  | .method => "method"
  | .field => "field"

/-- An entry of one of the tables. -/
inductive Entry where
  | type (id : TypeId)
  | method (id : MethodId)
  | field (id : FieldId)
  deriving DecidableEq, Repr

/-- How messages call an entry. -/
def Entry.text : Entry → String
  | .type id => "type " ++ id.text
  | .method id => "method " ++ id.text
  | .field id => "field " ++ id.text

/-- The place of a record in a file: the number of the record in its table. -/
inductive RecordPlace where
  | field (index : Nat)
  | method (index : Nat)
  deriving DecidableEq, Repr

/-- How messages call the place. -/
def RecordPlace.text : RecordPlace → String
  | .field index => "field " ++ toString index
  | .method index => "method " ++ toString index

/-- What is wrong with a module. -/
inductive Defect where
  | badBoolean (byte : UInt8)
  | badOptionTag (byte : UInt8)
  | truncatedString
  | notUtf8 (flaw : Text.Utf8.Flaw)
  | unknownElementType (tag : UInt8)
  | unknownClauseKind (tag : UInt8)
  | unknownFlags (owner : FlagsOwner) (bits : Nat)
  | trailingBytes (count : Nat)
  /-- A type stands before the type that it is nested in. -/
  | nestedInLater (type : Nat) (outer : TypeId)
  /-- A record of a file mentions an entry that no table has. -/
  | missingEntry (place : RecordPlace) (entry : Entry)
  /-- A body of a file mentions a position that it does not have. -/
  | positionPastEnd (place : RecordPlace) (position : UInt32)
  /-- An operand or a type of an edit mentions an entry that no table has. -/
  | missingOperand (entry : Entry)
  deriving DecidableEq, Repr

/-- A number in base sixteen with its mark in front, at least `width` digits long. -/
def hexText (width n : Nat) : String :=
  let digits := Text.hexDigits n
  "0x" ++ String.ofList (List.replicate (width - digits.length) '0' ++ digits)

/-- The wording of a defect. -/
def Defect.message : Defect → String
  | .badBoolean byte => "invalid boolean byte " ++ toString byte.toNat
  | .badOptionTag byte => "invalid option tag " ++ toString byte.toNat
  | .truncatedString => "truncated string"
  | .notUtf8 flaw => "string is not UTF-8: " ++ flaw.message
  | .unknownElementType tag => "unknown element type " ++ hexText 2 tag.toNat
  | .unknownClauseKind tag => "unknown exception clause kind " ++ toString tag.toNat
  | .unknownFlags owner bits => "unknown " ++ owner.text ++ " flags " ++ hexText 1 bits
  | .trailingBytes count => toString count ++ " trailing bytes after module"
  | .nestedInLater type outer =>
    "type " ++ toString type ++ " is nested in later type " ++ outer.text
  | .missingEntry place entry => place.text ++ " refers to missing " ++ entry.text
  | .positionPastEnd place position =>
    place.text ++ " has a reference to position " ++ toString position.toNat ++ " past its end"
  | .missingOperand entry => "missing " ++ entry.text

end Graft
