import AnnotatedRoutes.Text.Quoted

namespace AnnotatedRoutes.Yaml

inductive Fault where
  | unprintable (c : Char)
  | unexpected (c : Char)
  | unterminated
  | unknownEscape
  | markInQuotes
  | headerUnreadable
  | nameUnreadable
  | tagUnreadable
  | directiveUnreadable
  | keyUnfinished
  | misplacedItem
  | misplacedKey
  | misplacedValue
  | contentExpected
  | sequenceUnclosed
  | mappingUnclosed
  | documentExpected
  | documentRepeated
  | anchorUnknown (name : Text)
  | anchorRepeated (name : Text)
  | handleUnknown (handle : Text)
  | tooDeep
  | tagUnknown
  | contentUnfit
  | compoundKey
  | mergeUnfit
  deriving DecidableEq

def Fault.message : Fault → Text
  | .unprintable c => "the character ".toList ++ Text.quoted [c] ++ " is not allowed".toList
  | .unexpected c => "no value begins with the character ".toList ++ Text.quoted [c]
  | .unterminated => "a text in quotes has no end".toList
  | .unknownEscape => "an escape in a text in quotes is unknown".toList
  | .markInQuotes => "a document ends in a text in quotes".toList
  | .headerUnreadable => "the signs of a block of lines are unreadable".toList
  | .nameUnreadable => "the name of an anchor is unreadable".toList
  | .tagUnreadable => "a tag is unreadable".toList
  | .directiveUnreadable => "a directive is unreadable".toList
  | .keyUnfinished => "a key has no colon".toList
  | .misplacedItem => "a list item stands where none may".toList
  | .misplacedKey => "a key stands where none may".toList
  | .misplacedValue => "a value stands where none may".toList
  | .contentExpected => "a value is missing".toList
  | .sequenceUnclosed => "a list has no end".toList
  | .mappingUnclosed => "a mapping has no end".toList
  | .documentExpected => "a document is missing".toList
  | .documentRepeated => "there are several documents".toList
  | .anchorUnknown name => "no value has the anchor ".toList ++ Text.quoted name
  | .anchorRepeated name => "several values have the anchor ".toList ++ Text.quoted name
  | .handleUnknown handle => "no tags begin with ".toList ++ Text.quoted handle
  | .tooDeep => "values are nested too deep".toList
  | .tagUnknown => "values with such a tag are unknown".toList
  | .contentUnfit => "a value does not fit its tag".toList
  | .compoundKey => "a key has parts".toList
  | .mergeUnfit => "only mappings are merged".toList

end AnnotatedRoutes.Yaml
