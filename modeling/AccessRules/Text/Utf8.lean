/-!
# Bytes of a text

Texts are stored in UTF-8.
-/

namespace AccessRules.Text

/-- The bytes of a string. -/
def encode (text : String) : List UInt8 :=
  text.toUTF8.toList

/-- The string that the bytes spell, if they are UTF-8. -/
def decode? (bytes : List UInt8) : Option String :=
  String.fromUTF8? bytes.toByteArray

end AccessRules.Text
