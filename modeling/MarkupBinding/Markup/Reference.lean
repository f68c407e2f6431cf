import MarkupBinding.Json.Reader
import MarkupBinding.Text.Split

/-!
# Character references

A character reference writes a character by its number or by a name. In text a named reference may
lack its semicolon; in attribute values only the older names may, and the longest known name at the
front of what follows the ampersand counts. `decodeValue` decodes the references of an attribute
value, and `escape` writes text so that decoding gives it back.

The table of names is cut: it has those of HTML 4 and the older capital ones, and none of the two
thousand that came with HTML 5. A reference to one of these is taken as unknown here.
-/

set_option autoImplicit false
set_option relaxedAutoImplicit false

namespace MarkupBinding.Reference

/-- The named references and the code points they stand for. -/
def named : List (String × Nat) :=
  [("AElig", 198), ("AMP", 38), ("Aacute", 193), ("Acirc", 194), ("Agrave", 192), ("Alpha", 913),
    ("Aring", 197), ("Atilde", 195), ("Auml", 196), ("Beta", 914), ("COPY", 169), ("Ccedil", 199),
    ("Chi", 935), ("Dagger", 8225), ("Delta", 916), ("ETH", 208), ("Eacute", 201), ("Ecirc", 202),
    ("Egrave", 200), ("Epsilon", 917), ("Eta", 919), ("Euml", 203), ("GT", 62), ("Gamma", 915),
    ("Iacute", 205), ("Icirc", 206), ("Igrave", 204), ("Iota", 921), ("Iuml", 207),
    ("Kappa", 922), ("LT", 60), ("Lambda", 923), ("Mu", 924), ("Ntilde", 209), ("Nu", 925),
    ("OElig", 338), ("Oacute", 211), ("Ocirc", 212), ("Ograve", 210), ("Omega", 937),
    ("Omicron", 927), ("Oslash", 216), ("Otilde", 213), ("Ouml", 214), ("Phi", 934), ("Pi", 928),
    ("Prime", 8243), ("Psi", 936), ("QUOT", 34), ("REG", 174), ("Rho", 929), ("Scaron", 352),
    ("Sigma", 931), ("THORN", 222), ("Tau", 932), ("Theta", 920), ("Uacute", 218), ("Ucirc", 219),
    ("Ugrave", 217), ("Upsilon", 933), ("Uuml", 220), ("Xi", 926), ("Yacute", 221), ("Yuml", 376),
    ("Zeta", 918), ("aacute", 225), ("acirc", 226), ("acute", 180), ("aelig", 230),
    ("agrave", 224), ("alefsym", 8501), ("alpha", 945), ("amp", 38), ("and", 8743), ("ang", 8736),
    ("apos", 39), ("aring", 229), ("asymp", 8776), ("atilde", 227), ("auml", 228),
    ("bdquo", 8222), ("beta", 946), ("brvbar", 166), ("bull", 8226), ("cap", 8745),
    ("ccedil", 231), ("cedil", 184), ("cent", 162), ("chi", 967), ("circ", 710), ("clubs", 9827),
    ("cong", 8773), ("copy", 169), ("crarr", 8629), ("cup", 8746), ("curren", 164),
    ("dArr", 8659), ("dagger", 8224), ("darr", 8595), ("deg", 176), ("delta", 948),
    ("diams", 9830), ("divide", 247), ("eacute", 233), ("ecirc", 234), ("egrave", 232),
    ("empty", 8709), ("emsp", 8195), ("ensp", 8194), ("epsilon", 949), ("equiv", 8801),
    ("eta", 951), ("eth", 240), ("euml", 235), ("euro", 8364), ("exist", 8707), ("fnof", 402),
    ("forall", 8704), ("frac12", 189), ("frac14", 188), ("frac34", 190), ("frasl", 8260),
    ("gamma", 947), ("ge", 8805), ("gt", 62), ("hArr", 8660), ("harr", 8596), ("hearts", 9829),
    ("hellip", 8230), ("iacute", 237), ("icirc", 238), ("iexcl", 161), ("igrave", 236),
    ("image", 8465), ("infin", 8734), ("int", 8747), ("iota", 953), ("iquest", 191),
    ("isin", 8712), ("iuml", 239), ("kappa", 954), ("lArr", 8656), ("lambda", 955),
    ("lang", 9001), ("laquo", 171), ("larr", 8592), ("lceil", 8968), ("ldquo", 8220),
    ("le", 8804), ("lfloor", 8970), ("lowast", 8727), ("loz", 9674), ("lrm", 8206),
    ("lsaquo", 8249), ("lsquo", 8216), ("lt", 60), ("macr", 175), ("mdash", 8212), ("micro", 181),
    ("middot", 183), ("minus", 8722), ("mu", 956), ("nabla", 8711), ("nbsp", 160),
    ("ndash", 8211), ("ne", 8800), ("ni", 8715), ("not", 172), ("notin", 8713), ("nsub", 8836),
    ("ntilde", 241), ("nu", 957), ("oacute", 243), ("ocirc", 244), ("oelig", 339),
    ("ograve", 242), ("oline", 8254), ("omega", 969), ("omicron", 959), ("oplus", 8853),
    ("or", 8744), ("ordf", 170), ("ordm", 186), ("oslash", 248), ("otilde", 245),
    ("otimes", 8855), ("ouml", 246), ("para", 182), ("part", 8706), ("permil", 8240),
    ("perp", 8869), ("phi", 966), ("pi", 960), ("piv", 982), ("plusmn", 177), ("pound", 163),
    ("prime", 8242), ("prod", 8719), ("prop", 8733), ("psi", 968), ("quot", 34), ("rArr", 8658),
    ("radic", 8730), ("rang", 9002), ("raquo", 187), ("rarr", 8594), ("rceil", 8969),
    ("rdquo", 8221), ("real", 8476), ("reg", 174), ("rfloor", 8971), ("rho", 961), ("rlm", 8207),
    ("rsaquo", 8250), ("rsquo", 8217), ("sbquo", 8218), ("scaron", 353), ("sdot", 8901),
    ("sect", 167), ("shy", 173), ("sigma", 963), ("sigmaf", 962), ("sim", 8764), ("spades", 9824),
    ("sub", 8834), ("sube", 8838), ("sum", 8721), ("sup", 8835), ("sup1", 185), ("sup2", 178),
    ("sup3", 179), ("supe", 8839), ("szlig", 223), ("tau", 964), ("there4", 8756), ("theta", 952),
    ("thetasym", 977), ("thinsp", 8201), ("thorn", 254), ("tilde", 732), ("times", 215),
    ("trade", 8482), ("uArr", 8657), ("uacute", 250), ("uarr", 8593), ("ucirc", 251),
    ("ugrave", 249), ("uml", 168), ("upsih", 978), ("upsilon", 965), ("uuml", 252),
    ("weierp", 8472), ("xi", 958), ("yacute", 253), ("yen", 165), ("yuml", 255), ("zeta", 950),
    ("zwj", 8205), ("zwnj", 8204)]

/-- The names that may stand without a semicolon in attribute values. -/
def legacy : List String :=
  ["AElig", "AMP", "Aacute", "Acirc", "Agrave", "Aring", "Atilde", "Auml", "COPY", "Ccedil",
    "ETH", "Eacute", "Ecirc", "Egrave", "Euml", "GT", "Iacute", "Icirc", "Igrave", "Iuml", "LT",
    "Ntilde", "Oacute", "Ocirc", "Ograve", "Oslash", "Otilde", "Ouml", "QUOT", "REG", "THORN",
    "Uacute", "Ucirc", "Ugrave", "Uuml", "Yacute", "aacute", "acirc", "acute", "aelig", "agrave",
    "amp", "aring", "atilde", "auml", "brvbar", "ccedil", "cedil", "cent", "copy", "curren",
    "deg", "divide", "eacute", "ecirc", "egrave", "eth", "euml", "frac12", "frac14", "frac34",
    "gt", "iacute", "icirc", "iexcl", "igrave", "iquest", "iuml", "laquo", "lt", "macr", "micro",
    "middot", "nbsp", "not", "ntilde", "oacute", "ocirc", "ograve", "ordf", "ordm", "oslash",
    "otilde", "ouml", "para", "plusmn", "pound", "quot", "raquo", "reg", "sect", "shy", "sup1",
    "sup2", "sup3", "szlig", "thorn", "times", "uacute", "ucirc", "ugrave", "uml", "uuml",
    "yacute", "yen", "yuml"]

/-- The numbers that stand for a character of the Windows code page instead of a control. -/
def codePage : List (Nat × Nat) :=
  [(128, 8364), (130, 8218), (131, 402), (132, 8222), (133, 8230), (134, 8224), (135, 8225),
    (136, 710), (137, 8240), (138, 352), (139, 8249), (140, 338), (142, 381), (145, 8216),
    (146, 8217), (147, 8220), (148, 8221), (149, 8226), (150, 8211), (151, 8212), (152, 732),
    (153, 8482), (154, 353), (155, 8250), (156, 339), (158, 382), (159, 376)]

/-- The replacement character. -/
def replacement : Char := Char.ofNat 0xFFFD

/-- Zero, surrogates and numbers beyond the last code point, which are no character. -/
def isNoCharacter (n : Nat) : Bool :=
  n == 0 || 0x10FFFF < n || (0xD800 ≤ n && n ≤ 0xDFFF)

/-- The character of a numeric reference; numbers that are no character give the replacement
character. -/
def numeric (n : Nat) : Char :=
  if isNoCharacter n then replacement
  else Char.ofNat ((codePage.lookup n).getD n)

/-- The character of a name. -/
def character? (name : String) : Option Char :=
  (named.lookup name).map Char.ofNat

/-- The number that hexadecimal digits write. -/
def hexNumber (digits : List Char) : Nat :=
  digits.foldl (fun n c ↦ n * 16 + (Text.hexValue? c).getD 0) 0

/-- A hexadecimal digit. -/
def isHexDigit (c : Char) : Bool :=
  (Text.hexValue? c).isSome

/-- Numbers that attribute values drop: controls and code points set aside as no characters. -/
def isDropped (n : Nat) : Bool :=
  (1 ≤ n && n ≤ 8) || n == 0xb || (0xe ≤ n && n ≤ 0x1f) || (0x7f ≤ n && n ≤ 0x9f) ||
    (0xfdd0 ≤ n && n ≤ 0xfdef) || n % 0x10000 == 0xfffe || n % 0x10000 == 0xffff

/-- The characters of a numeric reference in an attribute value. -/
def numericInValue (n : Nat) : List Char :=
  if n == 0x81 || n == 0x8d || n == 0x8f || n == 0x90 || n == 0x9d then [Char.ofNat n]
  else if isNoCharacter n || (codePage.lookup n).isSome then [numeric n]
  else if isDropped n then []
  else [numeric n]

/-- The characters without a semicolon at their front. -/
def dropSemicolon : List Char → List Char
  | ';' :: rest => rest
  | cs => cs

/-- A character that may belong to the name of a reference in an attribute value. -/
def isNamePart (c : Char) : Bool :=
  !(c == '\t' || c == '\n' || c == '\x0c' || c == ' ' || c == '<' || c == '&' || c == '#' ||
    c == ';')

/-- The longest of the first `size` initial parts of a name, of at least two characters, that may
stand without a semicolon, and the rest of the name. -/
def longestLegacy (name : List Char) : Nat → Option (Char × List Char)
  | 0 => none
  | size + 1 =>
    if size < 1 then none
    else
      let front := String.ofList (name.take (size + 1))
      match if legacy.contains front then character? front else none with
      | some c => some (c, name.drop (size + 1))
      | none => longestLegacy name size

/-- What a named reference in an attribute value stands for; `closed` tells whether a semicolon
follows the name. -/
def namedInValue (name : List Char) (closed : Bool) : List Char :=
  let text := String.ofList name
  let ending := if closed then [';'] else []
  let whole := if closed || legacy.contains text then character? text else none
  match whole with
  | some c => [c]
  | none =>
    let size := if closed then name.length else name.length - 1
    match longestLegacy name size with
    | some (c, rest) => c :: rest ++ ending
    | none => '&' :: name ++ ending

/-- The longest name that is read after an ampersand in an attribute value. -/
def nameLimit : Nat := 32

/-- Decodes the reference after an ampersand: what it stands for and the characters after it. -/
def decodeOne (cs : List Char) : List Char × List Char :=
  match cs with
  | '#' :: rest =>
    match rest with
    | x :: hex =>
      if (x == 'x' || x == 'X') && (hex.head?.any isHexDigit) then
        let n := hexNumber (hex.takeWhile isHexDigit)
        (numericInValue n, dropSemicolon (hex.dropWhile isHexDigit))
      else if x.isDigit then
        let n := Json.digitsValue (rest.takeWhile Char.isDigit)
        (numericInValue n, dropSemicolon (rest.dropWhile Char.isDigit))
      else (['&'], cs)
    | [] => (['&'], cs)
  | _ =>
    match (cs.take nameLimit).takeWhile isNamePart with
    | [] => (['&'], cs)
    | name =>
      match cs.drop name.length with
      | ';' :: rest => (namedInValue name true, rest)
      | rest => (namedInValue name false, rest)

/-- Decodes every reference of an attribute value; `fuel` bounds the number of steps. -/
def decodeSteps : Nat → List Char → List Char
  | 0, cs => cs
  | _, [] => []
  | fuel + 1, '&' :: rest =>
    let (decoded, rest) := decodeOne rest
    decoded ++ decodeSteps fuel rest
  | fuel + 1, c :: rest => c :: decodeSteps fuel rest

/-- An attribute value with its references decoded. -/
def decodeValue (cs : List Char) : List Char :=
  decodeSteps cs.length cs

/-- One character as markup text. -/
def escapeChar (c : Char) : List Char :=
  if c = '&' then "&amp;".toList
  else if c = '<' then "&lt;".toList
  else if c = '>' then "&gt;".toList
  else [c]

/-- A text as markup text: ampersands and angle brackets become references. -/
def escape (s : String) : String :=
  String.ofList (s.toList.flatMap escapeChar)

end MarkupBinding.Reference
