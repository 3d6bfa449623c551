import Wiring.Fault
import Wiring.Xml.Alphabets
import Wiring.Xml.Document

/-!
# `Wiring.Xml.Encoding`: documents from bytes

A document in a file tells its own encoding: by the byte order mark or the first two bytes, and
otherwise in its heading, which is ASCII up to there. UTF-8 holds where nothing is said. An encoding
of one byte per character is an alphabet, one that is not known is a fault of its own, and one of
several bytes per character other than UTF-8 and UTF-16 is refused.
-/

set_option autoImplicit false

namespace Wiring.Xml

/-- How bytes stand for characters. -/
inductive Encoding where
  | utf8
  /-- The numbers of the bytes are those of the characters. -/
  | latin
  | ascii
  /-- Units of two bytes, where the order of the two may be told. -/
  | wide (bigEndian : Option Bool)
  | alphabet (a : Alphabet)
  /-- An encoding in which no document is read. -/
  | refused (why : ForeignKind)

/-- Names of encodings of several bytes per character. -/
def severalAliases : List String :=
  ["big5_hkscs", "big5_tw", "chinese", "cp1361", "cp936", "csbig5", "csiso2022kr",
    "csiso58gb231280", "csshiftjis", "euc_cn", "euc_jis2004", "euccn", "eucgb2312_cn",
    "eucjis2004", "eucjisx0213", "eucjp", "euckr", "gb18030_2000", "gb2312_1980", "gb2312_80",
    "hkscs", "iso2022kr", "iso_2022_kr", "iso_ir_58", "jisx0213", "korean", "ks_c_5601",
    "ks_c_5601_1987", "ks_x_1001", "ksc5601", "ksx1001", "ms1361", "ms932", "ms936", "ms949",
    "ms950", "ms_kanji", "mskanji", "s_jis", "s_jis_2004", "s_jisx0213", "shiftjis",
    "shiftjis2004", "shiftjisx0213", "sjis", "sjis_2004", "sjisx0213", "u16", "u32", "u7",
    "u_jis", "uhc", "ujis", "unicode_1_1_utf_7", "unicodebigunmarked", "unicodelittleunmarked",
    "utf16", "utf32", "utf7", "utf_16be", "utf_16le", "utf_32be", "utf_32le", "x_mac_japanese",
    "x_mac_korean", "x_mac_simp_chinese", "x_mac_trad_chinese"]

/-- Titles of encodings of several bytes per character. -/
def severalTitles : List String :=
  ["big5", "big5hkscs", "cp932", "cp949", "cp950", "euc_jis_2004", "euc_jisx0213", "euc_jp",
    "euc_kr", "gb18030", "gb2312", "gbk", "iso2022_kr", "johab", "shift_jis", "shift_jis_2004",
    "shift_jisx0213", "utf_16", "utf_16_be", "utf_16_le", "utf_32", "utf_32_be", "utf_32_le",
    "utf_7"]

/-- Names of encodings that do not keep to ASCII below 128. -/
def crossedAliases : List String :=
  ["csibm037", "csibm1026", "csibm273", "csibm424", "csibm500", "csibm864", "ebcdic_cp_be",
    "ebcdic_cp_ca", "ebcdic_cp_ch", "ebcdic_cp_he", "ebcdic_cp_nl", "ebcdic_cp_us",
    "ebcdic_cp_wt", "ibm037", "ibm039", "ibm1026", "ibm1140", "ibm273", "ibm424", "ibm500",
    "ibm864"]

/-- Titles of encodings that do not keep to ASCII below 128. -/
def crossedTitles : List String :=
  ["cp037", "cp1026", "cp1140", "cp273", "cp424", "cp500", "cp864", "cp875", "mac_arabic",
    "mac_farsi"]

/-- A name in small letters, with one underscore for marks between its parts. -/
def plainName : List Char → List Char
  | [] => []
  | c :: rest =>
    if c = '-' || c = '_' then
      match plainName rest with
      | [] => []
      | '_' :: tail => '_' :: tail
      | tail => '_' :: tail
    else c.toLower :: plainName rest

/-- The encoding that a heading names. The first few names are read letter by letter, and all others
by their plain form. -/
def Encoding.named (name : String) : Encoding :=
  match name.toUpper with
  | "UTF-8" => .utf8
  | "ISO-8859-1" => .latin
  | "US-ASCII" => .ascii
  | "UTF-16" => .wide none
  | "UTF-16BE" => .wide (some true)
  | "UTF-16LE" => .wide (some false)
  | _ =>
    let plain := String.ofList (plainName name.toList)
    match alphabets.find? (·.answers plain) with
    | some a => .alphabet a
    | none =>
      if answersTo severalAliases severalTitles plain then .refused .value
      else if answersTo crossedAliases crossedTitles plain then .refused .markup
      else if plain = "idna" || plain = "undefined" then .refused .text
      else if plain = "punycode" then .refused .encoding
      else .refused .codec

/-- The characters of a text of sixteen bit units, where two surrogates stand for one character. -/
def decodeUnits : List Nat → Option (List Char)
  | [] => some []
  | u :: rest =>
    if 0xd800 ≤ u && u < 0xdc00 then
      match rest with
      | v :: rest =>
        if 0xdc00 ≤ v && v < 0xe000 then
          (decodeUnits rest).map
            (Char.ofNat (0x10000 + (u - 0xd800) * 0x400 + (v - 0xdc00)) :: ·)
        else none
      | [] => none
    else if 0xdc00 ≤ u && u < 0xe000 then none
    else (decodeUnits rest).map (Char.ofNat u :: ·)

/-- The sixteen bit units of bytes in either order. -/
def unitsOf (bigEndian : Bool) : List UInt8 → Option (List Nat)
  | [] => some []
  | [_] => none
  | a :: b :: rest =>
    let unit := if bigEndian then a.toNat * 256 + b.toNat else b.toNat * 256 + a.toNat
    (unitsOf bigEndian rest).map (unit :: ·)

/-- The characters of bytes in UTF-8. -/
def decodeUtf8 (bytes : List UInt8) : Option (List Char) :=
  (String.fromUTF8? ⟨bytes.toArray⟩).map String.toList

/-- The encoding in the heading of a text, or nothing when the heading is malformed. -/
def declared? (cs : List Char) : Option (Option String) := (heading cs).map fun h => h.1.encoding

/-- The characters of a document and whether the ordinal signs and the micro sign are letters in
it. -/
abbrev Decoded := List Char × Bool

/-- What is decoded, or else a malformed document. -/
def wellEncoded (cs : Option (List Char)) (ordinals : Bool) : Except ForeignKind Decoded :=
  cs.elim (.error .markup) fun cs => .ok (cs, ordinals)

/-- Decodes sixteen bit units. A heading must name no other encoding. -/
def decodeWide (bigEndian : Bool) (bytes : List UInt8) : Except ForeignKind Decoded :=
  match (unitsOf bigEndian bytes).bind decodeUnits with
  | none => .error .markup
  | some cs =>
    match declared? cs with
    | none => .error .markup
    | some name =>
      match (name.map Encoding.named).getD (.wide none) with
      | .wide order => if order.getD bigEndian = bigEndian then .ok (cs, false) else .error .markup
      | .refused why => .error why
      | _ => .error .markup

/-- Decodes bytes by the encoding in their heading. -/
def decodeNarrow (bytes : List UInt8) : Except ForeignKind Decoded :=
  match declared? (bytes.map fun b => Char.ofNat b.toNat) with
  | none => .error .markup
  | some name =>
    match (name.map Encoding.named).getD .utf8 with
    | .utf8 => wellEncoded (decodeUtf8 bytes) false
    | .latin => .ok (bytes.map fun b => Char.ofNat b.toNat, true)
    | .ascii =>
      wellEncoded (bytes.mapM fun b => if b < 128 then some (Char.ofNat b.toNat) else none) false
    | .alphabet a => wellEncoded (bytes.mapM fun b => a.char? b.toNat) false
    | .wide _ => .error .markup
    | .refused why => .error why

/-- The characters of a document in bytes. Where no mark tells it, a byte of zero in front or behind
the first tells units of two bytes. -/
def decode : List UInt8 → Except ForeignKind Decoded
  | 0xff :: 0xfe :: rest => decodeWide false rest
  | 0xfe :: 0xff :: rest => decodeWide true rest
  | 0xef :: 0xbb :: 0xbf :: rest => decodeNarrow rest
  | 0x00 :: rest => decodeWide true (0x00 :: rest)
  | a :: 0x00 :: rest => decodeWide false (a :: 0x00 :: rest)
  | bytes => decodeNarrow bytes

/-- The tree of a document in bytes. -/
def readBytes (bytes : List UInt8) : Except ForeignKind Element :=
  match decode bytes with
  | .error e => .error e
  | .ok (cs, ordinals) => (readCharacters? ordinals cs).elim (.error .markup) .ok

end Wiring.Xml
