import Coursework.Text.Utf8
import Coursework.Uuid
/-!
Percent encoding: a percent sign and two hexadecimal digits stand for one byte of UTF-8. A percent
sign without them stands for itself.
-/
namespace Coursework.Text

def percentBytes : List Char → List UInt8
  | [] => []
  | '%' :: a :: b :: cs =>
    match HexDigit.ofChar? a, HexDigit.ofChar? b with
    | some high, some low => UInt8.ofNat (16 * high.val + low.val) :: percentBytes cs
    | _, _ => String.utf8EncodeChar '%' ++ percentBytes (a :: b :: cs)
  | c :: cs => String.utf8EncodeChar c ++ percentBytes cs

def percentDecode (cs : List Char) : Except Utf8Fault String := utf8Decode (percentBytes cs)

def percentDecodeLossy (cs : List Char) : String := utf8DecodeLossy (percentBytes cs)

end Coursework.Text
