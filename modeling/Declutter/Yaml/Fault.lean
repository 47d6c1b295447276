import Declutter.Text.Basic
/-!
Why a text is no YAML document.
-/

set_option autoImplicit false
set_option relaxedAutoImplicit false

namespace Declutter.Yaml

inductive Fault where
  | nullUnit
  | unprintable
  /-- The text ends, or the document does, within a scalar, a collection or a tag. -/
  | unfinished (what : Text)
  | unknownEscape
  | hexDigitExpected
  | commaExpected
  | contentExpected
  | colonExpected
  | blankExpected
  | multilineKey
  | keyExpected
  | badIndentation (what : Text)
  | tabIndentation
  | duplicateKey (key : Text)
  | nestedKey
  | badMerge
  | unnamed (what : Text)
  | unknownAlias (name : Text)
  | repeatedProperty (what : Text)
  | aliasWithProperties
  | badTag (reason : Text)
  | unknownTag (tag : Text)
  | unresolvedTag (tag : Text)
  | repeatedIndicator (what : Text)
  | zeroIndentation
  | lineBreakExpected
  | badDirective (reason : Text)
  | documentStartExpected
  | documentEndExpected
  | severalDocuments
  | tooDeep
deriving DecidableEq, Repr

namespace Fault

def message : Fault → Text
  | nullUnit => "null byte is not allowed in input"
  | unprintable => "the stream contains non-printable characters"
  | unfinished what => "unexpected end of the stream within a " ++ what
  | unknownEscape => "unknown escape sequence"
  | hexDigitExpected => "expected hexadecimal character"
  | commaExpected => "missed comma between flow collection entries"
  | contentExpected => "expected the node content, but found ','"
  | colonExpected => "can not read an implicit mapping pair; a colon is missed"
  | blankExpected =>
    "a whitespace character is expected after the key-value separator within a block mapping"
  | multilineKey => "can not read a block mapping entry; a multiline key may not be an implicit key"
  | keyExpected => "incomplete explicit mapping pair; a key node is missed"
  | badIndentation what => "bad indentation of a " ++ what ++ " entry"
  | tabIndentation => "tab characters must not be used in indentation"
  | duplicateKey _ => "duplicated mapping key"
  | nestedKey => "nested arrays are not supported inside keys"
  | badMerge => "cannot merge mappings; the provided source object is unacceptable"
  | unnamed what => "name of an " ++ what ++ " node must contain at least one character"
  | unknownAlias name => "unidentified alias \"" ++ name ++ "\""
  | repeatedProperty what => "duplication of " ++ what ++ " property"
  | aliasWithProperties => "alias node should not have any properties"
  | badTag reason => reason
  | unknownTag tag => "unknown tag !<" ++ tag ++ ">"
  | unresolvedTag tag => "cannot resolve a node with !<" ++ tag ++ "> explicit tag"
  | repeatedIndicator what => "repeat of " ++ what
  | zeroIndentation =>
    "bad explicit indentation width of a block scalar; it cannot be less than one"
  | lineBreakExpected => "a line break is expected"
  | badDirective reason => reason
  | documentStartExpected => "directives end mark is expected"
  | documentEndExpected => "end of the stream or a document separator is expected"
  | severalDocuments => "expected a single document in the stream, but found more"
  | tooDeep => "the nodes are nested too deeply"

end Fault

end Declutter.Yaml
