/-!
# Bytes

Paths, arguments and file contents are sequences of bytes, without regard to an encoding.
-/

namespace LinearLight

abbrev Bytes := List UInt8

def bytesOf (text : String) : Bytes := text.toUTF8.toList

end LinearLight
