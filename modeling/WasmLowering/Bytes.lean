/-
# Bytes

Byte sequences are lists, and a text is written as its UTF-8 bytes.
-/

namespace WasmLowering

/-- Bytes, in order. -/
abbrev Bytes := List UInt8

/-- The UTF-8 bytes of a text. -/
def utf8 (s : String) : Bytes := s.toUTF8.data.toList

/-- **The byte size is a length.**  A text has as many bytes as its size in UTF-8 says. -/
theorem length_utf8 (s : String) : (utf8 s).length = s.utf8ByteSize := rfl

end WasmLowering
