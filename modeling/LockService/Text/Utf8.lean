/-!
# Texts as bytes

What travels between a client and the service is bytes, and every record on the way is text in
UTF-8.  Streams are cut at arbitrary bytes, so they are kept as lists of bytes and only a complete
line is ever decoded.
-/

namespace LockService.Utf8

/-- The bytes of a text. -/
def encode (text : String) : List UInt8 :=
  text.toByteArray.data.toList

/-- The text that some bytes spell, if they spell one. -/
def decode? (bytes : List UInt8) : Option String :=
  String.fromUTF8? bytes.toByteArray

end LockService.Utf8
