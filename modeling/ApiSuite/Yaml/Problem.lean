/-!
The ways in which a text fails to be YAML, and what was being read at the time.
-/

namespace ApiSuite.Yaml

inductive Unreadable where
  | leadingOctet
  | trailingOctet
  | incomplete
  | overlong
  | notScalarValue
  | controlCharacter
  deriving DecidableEq, Repr

def Unreadable.message : Unreadable → String
  | .leadingOctet => "invalid leading UTF-8 octet"
  | .trailingOctet => "invalid trailing UTF-8 octet"
  | .incomplete => "incomplete UTF-8 octet sequence"
  | .overlong => "invalid length of a UTF-8 sequence"
  | .notScalarValue => "invalid Unicode character"
  | .controlCharacter => "control characters are not allowed"

inductive Problem where
  | blockEntryHere
  | blockKeyHere
  | blockValueHere
  | noColon
  | noDirectiveName
  | nonAlphabetic
  | unknownDirective
  | longVersion
  | noVersionNumber
  | noVersionDot
  | noHandleEnd
  | noBlank
  | noBlankOrBreak
  | noCommentOrBreak
  | noUriEscape
  | uriLeadingOctet
  | uriTrailingOctet
  | noTagUri
  | noTagEnd
  | noAnchorName
  | zeroIndentation
  | tabForIndentation
  | tabBelowIndentation
  | documentIndicator
  | endOfStream
  | unknownEscape
  | noHexDigit
  | notScalarValue
  | colonInFlow
  | noTokenStart
  | noDocumentStart
  | repeatedVersion
  | foreignVersion
  | repeatedTagHandle
  | unknownTagHandle
  | noNodeContent
  | noDash
  | noKey
  | noCommaOrBracket
  | noCommaOrBrace
  deriving DecidableEq, Repr

def Problem.message : Problem → String
  | .blockEntryHere => "block sequence entries are not allowed in this context"
  | .blockKeyHere => "mapping keys are not allowed in this context"
  | .blockValueHere => "mapping values are not allowed in this context"
  | .noColon => "could not find expected ':'"
  | .noDirectiveName => "could not find expected directive name"
  | .nonAlphabetic => "found unexpected non-alphabetical character"
  | .unknownDirective => "found unknown directive name"
  | .longVersion => "found extremely long version number"
  | .noVersionNumber => "did not find expected version number"
  | .noVersionDot => "did not find expected digit or '.' character"
  | .noHandleEnd => "did not find expected '!'"
  | .noBlank => "did not find expected whitespace"
  | .noBlankOrBreak => "did not find expected whitespace or line break"
  | .noCommentOrBreak => "did not find expected comment or line break"
  | .noUriEscape => "did not find URI escaped octet"
  | .uriLeadingOctet => "found an incorrect leading UTF-8 octet"
  | .uriTrailingOctet => "found an incorrect trailing UTF-8 octet"
  | .noTagUri => "did not find expected tag URI"
  | .noTagEnd => "did not find the expected '>'"
  | .noAnchorName => "did not find expected alphabetic or numeric character"
  | .zeroIndentation => "found an indentation indicator equal to 0"
  | .tabForIndentation => "found a tab character where an indentation space is expected"
  | .tabBelowIndentation => "found a tab character that violates indentation"
  | .documentIndicator => "found unexpected document indicator"
  | .endOfStream => "found unexpected end of stream"
  | .unknownEscape => "found unknown escape character"
  | .noHexDigit => "did not find expected hexadecimal number"
  | .notScalarValue => "found invalid Unicode character escape code"
  | .colonInFlow => "found unexpected ':'"
  | .noTokenStart => "found character that cannot start any token"
  | .noDocumentStart => "did not find expected <document start>"
  | .repeatedVersion => "found duplicate %YAML directive"
  | .foreignVersion => "found incompatible YAML document"
  | .repeatedTagHandle => "found duplicate %TAG directive"
  | .unknownTagHandle => "found undefined tag handle"
  | .noNodeContent => "did not find expected node content"
  | .noDash => "did not find expected '-' indicator"
  | .noKey => "did not find expected key"
  | .noCommaOrBracket => "did not find expected ',' or ']'"
  | .noCommaOrBrace => "did not find expected ',' or '\x7d'"

inductive Activity where
  | nextToken
  | simpleKey
  | directive
  | versionDirective
  | tagDirective
  | tagDirectiveHandle
  | tagDirectiveHandleEnd
  | tagDirectiveUri
  | anchor
  | alias
  | tag
  | tagUri
  | blockScalar
  | quotedScalar
  | escapeSequence
  | plainScalar
  | node
  | blockNode
  | flowNode
  | blockCollection
  | blockMapping
  | flowSequence
  | flowMapping
  deriving DecidableEq, Repr

def Activity.phrase : Activity → String
  | .nextToken => "while scanning for the next token"
  | .simpleKey => "while scanning a simple key"
  | .directive => "while scanning a directive"
  | .versionDirective => "while scanning a %YAML directive"
  | .tagDirective => "while scanning a %TAG directive"
  | .tagDirectiveHandle => "while scanning a tag directive"
  | .tagDirectiveHandleEnd => "while parsing a tag directive"
  | .tagDirectiveUri => "while parsing a %TAG directive"
  | .anchor => "while scanning an anchor"
  | .alias => "while scanning an alias"
  | .tag => "while scanning a tag"
  | .tagUri => "while parsing a tag"
  | .blockScalar => "while scanning a block scalar"
  | .quotedScalar => "while scanning a quoted scalar"
  | .escapeSequence => "while parsing a quoted scalar"
  | .plainScalar => "while scanning a plain scalar"
  | .node => "while parsing a node"
  | .blockNode => "while parsing a block node"
  | .flowNode => "while parsing a flow node"
  | .blockCollection => "while parsing a block collection"
  | .blockMapping => "while parsing a block mapping"
  | .flowSequence => "while parsing a flow sequence"
  | .flowMapping => "while parsing a flow mapping"

end ApiSuite.Yaml
