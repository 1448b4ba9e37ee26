import Yang.Calendar
import Yang.Number.Literal
import Yang.Text.Codec
import Yang.Text.Utf8

/-!
This module contains everything that can be wrong with a YAML stream, from its characters to the values that
its scalars stand for.
-/

namespace Yang.Yaml

inductive Shape where
  | scalar
  | sequence
  | mapping
  deriving DecidableEq, Repr, Inhabited

def Shape.name : Shape → String
  | scalar => "scalar"
  | sequence => "sequence"
  | mapping => "mapping"

inductive Problem where
  | missingColon
  | entryNotAllowed
  | keyNotAllowed
  | valueNotAllowed
  | noToken (c : Char)
  | noName (c : Char)
  | noDigitOrPoint (c : Char)
  | noDigitOrSpace (c : Char)
  | noDigit (c : Char)
  | noSpace (c : Char)
  | noLineEnd (c : Char)
  | noTagEnd (c : Char)
  | noHandle (c : Char)
  | noUri (c : Char)
  | uriEscape (c : Char)
  | uriOctets (fault : Text.Utf8.Fault)
  | zeroIndentation
  | noBlockHeader (c : Char)
  | escapeDigits (count : Nat) (c : Char)
  | unknownEscape (c : Char)
  | unclosedQuote
  | quoteAcrossDocuments
  | noDocumentStart (token : String)
  | secondVersion
  | otherVersion
  | secondHandle (handle : String)
  | undefinedHandle (handle : String)
  | noContent (token : String)
  | noBlockEnd (token : String)
  | noSequenceSeparator (token : String)
  | noMappingSeparator (token : String)
  | undefinedAlias (anchor : String)
  | secondAnchor
  | shapeExpected (expected found : Shape)
  | unhashableKey
  | mergeItem (found : Shape)
  | mergeValue (found : Shape)
  | unknownTag (tag : String)
  | base64Text (run : Text.Unwritten)
  | base64Length (count : Nat)
  | base64Padding
  | pairsExpected (found : Shape)
  | pairExpected (found : Shape)
  | pairCount (count : Nat)
  deriving DecidableEq, Repr, Inhabited

def quotedChar (c : Char) : String :=
  Text.quoted (String.singleton c)

def Problem.message : Problem → String
  | missingColon => "could not find expected ':'"
  | entryNotAllowed => "sequence entries are not allowed here"
  | keyNotAllowed => "mapping keys are not allowed here"
  | valueNotAllowed => "mapping values are not allowed here"
  | noToken c => "found character " ++ quotedChar c ++ " that cannot start any token"
  | noName c => "expected alphabetic or numeric character, but found " ++ quotedChar c
  | noDigitOrPoint c => "expected a digit or '.', but found " ++ quotedChar c
  | noDigitOrSpace c => "expected a digit or ' ', but found " ++ quotedChar c
  | noDigit c => "expected a digit, but found " ++ quotedChar c
  | noSpace c => "expected ' ', but found " ++ quotedChar c
  | noLineEnd c => "expected a comment or a line break, but found " ++ quotedChar c
  | noTagEnd c => "expected '>', but found " ++ quotedChar c
  | noHandle c => "expected '!', but found " ++ quotedChar c
  | noUri c => "expected URI, but found " ++ quotedChar c
  | uriEscape c =>
    "expected URI escape sequence of 2 hexadecimal numbers, but found " ++ quotedChar c
  | uriOctets fault => fault.message
  | zeroIndentation => "expected indentation indicator in the range 1-9, but found 0"
  | noBlockHeader c => "expected chomping or indentation indicators, but found " ++ quotedChar c
  | escapeDigits count c =>
    "expected escape sequence of " ++ toString count ++ " hexadecimal numbers, but found "
      ++ quotedChar c
  | unknownEscape c => "found unknown escape character " ++ quotedChar c
  | unclosedQuote => "found unexpected end of stream"
  | quoteAcrossDocuments => "found unexpected document separator"
  | noDocumentStart token => "expected '<document start>', but found " ++ Text.quoted token
  | secondVersion => "found duplicate YAML directive"
  | otherVersion => "found incompatible YAML document (version 1.* is required)"
  | secondHandle handle => "duplicate tag handle " ++ Text.quoted handle
  | undefinedHandle handle => "found undefined tag handle " ++ Text.quoted handle
  | noContent token => "expected the node content, but found " ++ Text.quoted token
  | noBlockEnd token => "expected <block end>, but found " ++ Text.quoted token
  | noSequenceSeparator token => "expected ',' or ']', but got " ++ Text.quoted token
  | noMappingSeparator token => "expected ',' or '\x7d', but got " ++ Text.quoted token
  | undefinedAlias anchor => "found undefined alias " ++ Text.quoted anchor
  | secondAnchor => "second occurrence"
  | shapeExpected expected found =>
    "expected a " ++ expected.name ++ " node, but found " ++ found.name
  | unhashableKey => "found unhashable key"
  | mergeItem found => "expected a mapping for merging, but found " ++ found.name
  | mergeValue found => "expected a mapping or list of mappings for merging, but found " ++ found.name
  | unknownTag tag => "could not determine a constructor for the tag " ++ Text.quoted tag
  | base64Text run => "failed to convert base64 data into ascii: " ++ run.message
  | base64Length count =>
    "failed to decode base64 data: Invalid base64-encoded string: number of data characters ("
      ++ toString count ++ ") cannot be 1 more than a multiple of 4"
  | base64Padding => "failed to decode base64 data: Incorrect padding"
  | pairsExpected found => "expected a sequence, but found " ++ found.name
  | pairExpected found => "expected a mapping of length 1, but found " ++ found.name
  | pairCount count => "expected a single mapping item, but found " ++ toString count ++ " items"

inductive ScalarFault where
  | literal (fault : Literal.Fault)
  | calendar (fault : CalendarFault)
  | codePoint
  | codePointWidth
  | emptyNumber
  | noTruthValue (text : String)
  | noTimestamp
  | timestampShape
  | sixtiethsRange
  | tooManyDigits
  deriving DecidableEq, Repr, Inhabited

def ScalarFault.message : ScalarFault → String
  | literal fault => fault.message
  | calendar fault => fault.message
  | codePoint => "chr() arg not in range(0x110000)"
  | codePointWidth => "Python int too large to convert to C int"
  | emptyNumber => "string index out of range"
  | noTruthValue text => text
  | noTimestamp => "'NoneType' object has no attribute 'groupdict'"
  | timestampShape => "expected string or bytes-like object, got 'list'"
  | sixtiethsRange => "int too large to convert to float"
  | tooManyDigits => Literal.limitWords ++ Literal.limitHint

inductive Fault where
  | character (code : Nat) (position : Nat)
  | problem (cause : Problem) (line : Nat)
  | scalar (cause : ScalarFault)
  deriving DecidableEq, Repr, Inhabited

structure Produced (α : Type) where
  items : List α
  fault : Option Fault
  deriving Repr, Inhabited

end Yang.Yaml
