/-!
# `Wiring.Xml.Alphabets`: encodings of one byte per character

An alphabet tells which character each byte stands for. All of them agree with ASCII below 128, up
to characters that one may lack, so an alphabet is given by its upper half: eight rows of sixteen
characters, as in a code chart. A row that is left empty holds the characters whose numbers are the
bytes themselves, the number zero marks a byte without character, and rows at the end that are not
given hold none.

An encoding is known under its own title and under other names. Both are written in small letters,
with one underscore between the parts.
-/

set_option autoImplicit false

namespace Wiring.Xml

/-- An encoding of one byte per character. -/
structure Alphabet where
  /-- Names besides its title. They may also be spelled with dots. -/
  aliases : List String
  titles : List String
  /-- Characters below 128 that are not to be had. -/
  without : String := ""
  /-- The characters from 128 on, sixteen in a row. -/
  upper : List String

/-- The alphabets. -/
def alphabets : List Alphabet :=
  [
  { aliases := ["ansi_x3.4_1968", "ansi_x3.4_1986", "ansi_x3_4_1968", "cp367", "cp65001",
        "csascii", "csiso2022jp", "ibm367", "iso2022jp", "iso2022jp_1", "iso2022jp_2",
        "iso2022jp_2004", "iso2022jp_3", "iso2022jp_ext", "iso646_us", "iso_2022_jp",
        "iso_2022_jp_1", "iso_2022_jp_2", "iso_2022_jp_2004", "iso_2022_jp_3", "iso_2022_jp_ext",
        "iso_646.irv_1991", "iso_ir_6", "u8", "us", "us_ascii", "utf", "utf8", "utf8_ucs2",
        "utf8_ucs4"]
    titles := ["ascii", "iso2022_jp", "iso2022_jp_1", "iso2022_jp_2", "iso2022_jp_2004",
        "iso2022_jp_3", "iso2022_jp_ext", "utf_8", "utf_8_sig"]
    upper := [] },
  { aliases := ["hz_gb", "hz_gb_2312", "hzgb"]
    titles := ["hz"]
    without := "~"
    upper := [] },
  { aliases := ["arabic", "asmo_708", "csisolatinarabic", "ecma_114", "iso_8859_6",
        "iso_8859_6_1987", "iso_ir_127"]
    titles := ["iso8859_6"]
    upper := [
      "",
      "",
      "\xa0\x00\x00\x00¤\x00\x00\x00\x00\x00\x00\x00،\xad\x00\x00",
      "\x00\x00\x00\x00\x00\x00\x00\x00\x00\x00\x00؛\x00\x00\x00؟",
      "\x00ءآأؤإئابةتثجحخد",
      "ذرزسشصضطظعغ\x00\x00\x00\x00\x00",
      "ـفقكلمنهوىي\u064b\u064c\u064d\u064e\u064f",
      "\u0650\u0651\u0652\x00\x00\x00\x00\x00\x00\x00\x00\x00\x00\x00\x00\x00"] },
  { aliases := ["cp819", "csisolatin1", "ibm819", "iso8859", "iso8859_1", "iso_8859_1",
        "iso_8859_1_1987", "iso_ir_100", "l1", "latin", "latin1"]
    titles := ["charmap", "latin_1", "raw_unicode_escape", "unicode_escape"]
    upper := [
      "",
      "",
      "",
      "",
      "",
      "",
      "",
      ""] },
  { aliases := []
    titles := ["cp1006"]
    upper := [
      "",
      "",
      "\xa0۰۱۲۳۴۵۶۷۸۹،؛\xad؟ﺁ",
      "ﺍﺎﺎﺏﺑﭖﭘﺓﺕﺗﭦﭨﺙﺛﺝﺟ",
      "ﭺﭼﺡﺣﺥﺧﺩﮄﺫﺭﮌﺯﮊﺱﺳﺵ",
      "ﺷﺹﺻﺽﺿﻁﻅﻉﻊﻋﻌﻍﻎﻏﻐﻑ",
      "ﻓﻕﻗﻙﻛﮒﮔﻝﻟﻠﻡﻣﮞﻥﻧﺅ",
      "ﻭﮦﮨﮩﮪﺀﺉﺊﺋﻱﻲﻳﮰﮮﹼﹽ"] },
  { aliases := ["cp1051", "ibm1051", "r8", "roman8"]
    titles := ["hp_roman8"]
    upper := [
      "",
      "",
      "\xa0ÀÂÈÊËÎÏ´ˋˆ¨˜ÙÛ₤",
      "¯Ýý°ÇçÑñ¡¿¤£¥§ƒ¢",
      "âêôûáéóúàèòùäëöü",
      "ÅîØÆåíøæÄìÖÜÉïßÔ",
      "ÁÃãÐðÍÌÓÒÕõŠšÚŸÿ",
      "Þþ·µ¶¾—¼½ªº«■»±\x00"] },
  { aliases := ["cp866u", "ibm1125", "ruscii"]
    titles := ["cp1125"]
    upper := [
      "АБВГДЕЖЗИЙКЛМНОП",
      "РСТУФХЦЧШЩЪЫЬЭЮЯ",
      "абвгдежзийклмноп",
      "░▒▓│┤╡╢╖╕╣║╗╝╜╛┐",
      "└┴┬├─┼╞╟╚╔╩╦╠═╬╧",
      "╨╤╥╙╘╒╓╫╪┘┌█▄▌▐▀",
      "рстуфхцчшщъыьэюя",
      "ЁёҐґЄєІіЇї·√№¤■\xa0"] },
  { aliases := ["windows_1250"]
    titles := ["cp1250"]
    upper := [
      "€\x00‚\x00„…†‡\x00‰Š‹ŚŤŽŹ",
      "\x00‘’“”•–—\x00™š›śťžź",
      "\xa0ˇ˘Ł¤Ą¦§¨©Ş«¬\xad®Ż",
      "°±˛ł´µ¶·¸ąş»Ľ˝ľż",
      "ŔÁÂĂÄĹĆÇČÉĘËĚÍÎĎ",
      "ĐŃŇÓÔŐÖ×ŘŮÚŰÜÝŢß",
      "ŕáâăäĺćçčéęëěíîď",
      "đńňóôőö÷řůúűüýţ˙"] },
  { aliases := ["windows_1251"]
    titles := ["cp1251"]
    upper := [
      "ЂЃ‚ѓ„…†‡€‰Љ‹ЊЌЋЏ",
      "ђ‘’“”•–—\x00™љ›њќћџ",
      "\xa0ЎўЈ¤Ґ¦§Ё©Є«¬\xad®Ї",
      "°±Ііґµ¶·ё№є»јЅѕї",
      "АБВГДЕЖЗИЙКЛМНОП",
      "РСТУФХЦЧШЩЪЫЬЭЮЯ",
      "абвгдежзийклмноп",
      "рстуфхцчшщъыьэюя"] },
  { aliases := ["windows_1252"]
    titles := ["cp1252"]
    upper := [
      "€\x00‚ƒ„…†‡ˆ‰Š‹Œ\x00Ž\x00",
      "\x00‘’“”•–—˜™š›œ\x00žŸ",
      "",
      "",
      "",
      "",
      "",
      ""] },
  { aliases := ["windows_1253"]
    titles := ["cp1253"]
    upper := [
      "€\x00‚ƒ„…†‡\x00‰\x00‹\x00\x00\x00\x00",
      "\x00‘’“”•–—\x00™\x00›\x00\x00\x00\x00",
      "\xa0΅Ά£¤¥¦§¨©\x00«¬\xad®―",
      "°±²³΄µ¶·ΈΉΊ»Ό½ΎΏ",
      "ΐΑΒΓΔΕΖΗΘΙΚΛΜΝΞΟ",
      "ΠΡ\x00ΣΤΥΦΧΨΩΪΫάέήί",
      "ΰαβγδεζηθικλμνξο",
      "πρςστυφχψωϊϋόύώ\x00"] },
  { aliases := ["windows_1254"]
    titles := ["cp1254"]
    upper := [
      "€\x00‚ƒ„…†‡ˆ‰Š‹Œ\x00\x00\x00",
      "\x00‘’“”•–—˜™š›œ\x00\x00Ÿ",
      "",
      "",
      "",
      "ĞÑÒÓÔÕÖ×ØÙÚÛÜİŞß",
      "",
      "ğñòóôõö÷øùúûüışÿ"] },
  { aliases := ["windows_1255"]
    titles := ["cp1255"]
    upper := [
      "€\x00‚ƒ„…†‡ˆ‰\x00‹\x00\x00\x00\x00",
      "\x00‘’“”•–—˜™\x00›\x00\x00\x00\x00",
      "\xa0¡¢£₪¥¦§¨©×«¬\xad®¯",
      "°±²³´µ¶·¸¹÷»¼½¾¿",
      "\u05b0\u05b1\u05b2\u05b3\u05b4\u05b5\u05b6\u05b7\u05b8\u05b9\x00\u05bb\u05bc\u05bd־\u05bf",
      "׀\u05c1\u05c2׃װױײ׳״\x00\x00\x00\x00\x00\x00\x00",
      "אבגדהוזחטיךכלםמן",
      "נסעףפץצקרשת\x00\x00\u200e\u200f\x00"] },
  { aliases := ["windows_1256"]
    titles := ["cp1256"]
    upper := [
      "€پ‚ƒ„…†‡ˆ‰ٹ‹Œچژڈ",
      "گ‘’“”•–—ک™ڑ›œ\u200c\u200dں",
      "\xa0،¢£¤¥¦§¨©ھ«¬\xad®¯",
      "°±²³´µ¶·¸¹؛»¼½¾؟",
      "ہءآأؤإئابةتثجحخد",
      "ذرزسشصض×طظعغـفقك",
      "àلâمنهوçèéêëىيîï",
      "\u064b\u064c\u064d\u064eô\u064f\u0650÷\u0651ù\u0652ûü\u200e\u200fے"] },
  { aliases := ["windows_1257"]
    titles := ["cp1257"]
    upper := [
      "€\x00‚\x00„…†‡\x00‰\x00‹\x00¨ˇ¸",
      "\x00‘’“”•–—\x00™\x00›\x00¯˛\x00",
      "\xa0\x00¢£¤\x00¦§Ø©Ŗ«¬\xad®Æ",
      "°±²³´µ¶·ø¹ŗ»¼½¾æ",
      "ĄĮĀĆÄÅĘĒČÉŹĖĢĶĪĻ",
      "ŠŃŅÓŌÕÖ×ŲŁŚŪÜŻŽß",
      "ąįāćäåęēčéźėģķīļ",
      "šńņóōõö÷ųłśūüżž˙"] },
  { aliases := ["windows_1258"]
    titles := ["cp1258"]
    upper := [
      "€\x00‚ƒ„…†‡ˆ‰\x00‹Œ\x00\x00\x00",
      "\x00‘’“”•–—˜™\x00›œ\x00\x00Ÿ",
      "",
      "",
      "ÀÁÂĂÄÅÆÇÈÉÊË\u0300ÍÎÏ",
      "ĐÑ\u0309ÓÔƠÖ×ØÙÚÛÜƯ\u0303ß",
      "àáâăäåæçèéêë\u0301íîï",
      "đñ\u0323óôơö÷øùúûüư₫ÿ"] },
  { aliases := ["cp154", "csptcp154", "cyrillic_asian", "pt154"]
    titles := ["ptcp154"]
    upper := [
      "ҖҒӮғ„…ҶҮҲүҠӢҢҚҺҸ",
      "җ‘’“”•–—ҳҷҡӣңқһҹ",
      "\xa0ЎўЈӨҘҰ§Ё©Ә«¬ӯ®Ҝ",
      "°ұІіҙө¶·ё№ә»јҪҫҝ",
      "АБВГДЕЖЗИЙКЛМНОП",
      "РСТУФХЦЧШЩЪЫЬЭЮЯ",
      "абвгдежзийклмноп",
      "рстуфхцчшщъыьэюя"] },
  { aliases := ["cspc8codepage437", "ibm437"]
    titles := ["cp437"]
    upper := [
      "ÇüéâäàåçêëèïîìÄÅ",
      "ÉæÆôöòûùÿÖÜ¢£¥₧ƒ",
      "áíóúñÑªº¿⌐¬½¼¡«»",
      "░▒▓│┤╡╢╖╕╣║╗╝╜╛┐",
      "└┴┬├─┼╞╟╚╔╩╦╠═╬╧",
      "╨╤╥╙╘╒╓╫╪┘┌█▄▌▐▀",
      "αßΓπΣσµτΦΘΩδ∞φε∩",
      "≡±≥≤⌠⌡÷≈°∙·√ⁿ²■\xa0"] },
  { aliases := []
    titles := ["cp720"]
    upper := [
      "\x80\x81éâ\x84à\x86çêëèïî\x8d\x8e\x8f",
      "\x90\u0651\u0652ô¤ـûùءآأؤ£إئا",
      "بةتثجحخدذرزسشص«»",
      "░▒▓│┤╡╢╖╕╣║╗╝╜╛┐",
      "└┴┬├─┼╞╟╚╔╩╦╠═╬╧",
      "╨╤╥╙╘╒╓╫╪┘┌█▄▌▐▀",
      "ضطظعغفµقكلمنهوىي",
      "≡\u064b\u064c\u064d\u064e\u064f\u0650≈°∙·√ⁿ²■\xa0"] },
  { aliases := []
    titles := ["cp737"]
    upper := [
      "ΑΒΓΔΕΖΗΘΙΚΛΜΝΞΟΠ",
      "ΡΣΤΥΦΧΨΩαβγδεζηθ",
      "ικλμνξοπρσςτυφχψ",
      "░▒▓│┤╡╢╖╕╣║╗╝╜╛┐",
      "└┴┬├─┼╞╟╚╔╩╦╠═╬╧",
      "╨╤╥╙╘╒╓╫╪┘┌█▄▌▐▀",
      "ωάέήϊίόύϋώΆΈΉΊΌΎ",
      "Ώ±≥≤ΪΫ÷≈°∙·√ⁿ²■\xa0"] },
  { aliases := ["cspc775baltic", "ibm775"]
    titles := ["cp775"]
    upper := [
      "ĆüéāäģåćłēŖŗīŹÄÅ",
      "ÉæÆōöĢ¢ŚśÖÜø£Ø×¤",
      "ĀĪóŻżź”¦©®¬½¼Ł«»",
      "░▒▓│┤ĄČĘĖ╣║╗╝ĮŠ┐",
      "└┴┬├─┼ŲŪ╚╔╩╦╠═╬Ž",
      "ąčęėįšųūž┘┌█▄▌▐▀",
      "ÓßŌŃõÕµńĶķĻļņĒŅ’",
      "\xad±“¾¶§÷„°∙·¹³²■\xa0"] },
  { aliases := ["cspc850multilingual", "ibm850"]
    titles := ["cp850"]
    upper := [
      "ÇüéâäàåçêëèïîìÄÅ",
      "ÉæÆôöòûùÿÖÜø£Ø×ƒ",
      "áíóúñÑªº¿®¬½¼¡«»",
      "░▒▓│┤ÁÂÀ©╣║╗╝¢¥┐",
      "└┴┬├─┼ãÃ╚╔╩╦╠═╬¤",
      "ðÐÊËÈıÍÎÏ┘┌█▄¦Ì▀",
      "ÓßÔÒõÕµþÞÚÛÙýÝ¯´",
      "\xad±‗¾¶§÷¸°¨·¹³²■\xa0"] },
  { aliases := ["cspcp852", "ibm852"]
    titles := ["cp852"]
    upper := [
      "ÇüéâäůćçłëŐőîŹÄĆ",
      "ÉĹĺôöĽľŚśÖÜŤťŁ×č",
      "áíóúĄąŽžĘę¬źČş«»",
      "░▒▓│┤ÁÂĚŞ╣║╗╝Żż┐",
      "└┴┬├─┼Ăă╚╔╩╦╠═╬¤",
      "đĐĎËďŇÍÎě┘┌█▄ŢŮ▀",
      "ÓßÔŃńňŠšŔÚŕŰýÝţ´",
      "\xad˝˛ˇ˘§÷¸°¨˙űŘř■\xa0"] },
  { aliases := ["csibm855", "ibm855"]
    titles := ["cp855"]
    upper := [
      "ђЂѓЃёЁєЄѕЅіІїЇјЈ",
      "љЉњЊћЋќЌўЎџЏюЮъЪ",
      "аАбБцЦдДеЕфФгГ«»",
      "░▒▓│┤хХиИ╣║╗╝йЙ┐",
      "└┴┬├─┼кК╚╔╩╦╠═╬¤",
      "лЛмМнНоОп┘┌█▄Пя▀",
      "ЯрРсСтТуУжЖвВьЬ№",
      "\xadыЫзЗшШэЭщЩчЧ§■\xa0"] },
  { aliases := []
    titles := ["cp856"]
    upper := [
      "אבגדהוזחטיךכלםמן",
      "נסעףפץצקרשת\x00£\x00×\x00",
      "\x00\x00\x00\x00\x00\x00\x00\x00\x00®¬½¼\x00«»",
      "░▒▓│┤\x00\x00\x00©╣║╗╝¢¥┐",
      "└┴┬├─┼\x00\x00╚╔╩╦╠═╬¤",
      "\x00\x00\x00\x00\x00\x00\x00\x00\x00┘┌█▄¦\x00▀",
      "\x00\x00\x00\x00\x00\x00µ\x00\x00\x00\x00\x00\x00\x00¯´",
      "\xad±‗¾¶§÷¸°¨·¹³²■\xa0"] },
  { aliases := ["csibm857", "ibm857"]
    titles := ["cp857"]
    upper := [
      "ÇüéâäàåçêëèïîıÄÅ",
      "ÉæÆôöòûùİÖÜø£ØŞş",
      "áíóúñÑĞğ¿®¬½¼¡«»",
      "░▒▓│┤ÁÂÀ©╣║╗╝¢¥┐",
      "└┴┬├─┼ãÃ╚╔╩╦╠═╬¤",
      "ºªÊËÈ\x00ÍÎÏ┘┌█▄¦Ì▀",
      "ÓßÔÒõÕµ\x00×ÚÛÙìÿ¯´",
      "\xad±\x00¾¶§÷¸°¨·¹³²■\xa0"] },
  { aliases := ["csibm858", "ibm858"]
    titles := ["cp858"]
    upper := [
      "ÇüéâäàåçêëèïîìÄÅ",
      "ÉæÆôöòûùÿÖÜø£Ø×ƒ",
      "áíóúñÑªº¿®¬½¼¡«»",
      "░▒▓│┤ÁÂÀ©╣║╗╝¢¥┐",
      "└┴┬├─┼ãÃ╚╔╩╦╠═╬¤",
      "ðÐÊËÈ€ÍÎÏ┘┌█▄¦Ì▀",
      "ÓßÔÒõÕµþÞÚÛÙýÝ¯´",
      "\xad±‗¾¶§÷¸°¨·¹³²■\xa0"] },
  { aliases := ["csibm860", "ibm860"]
    titles := ["cp860"]
    upper := [
      "ÇüéâãàÁçêÊèÍÔìÃÂ",
      "ÉÀÈôõòÚùÌÕÜ¢£Ù₧Ó",
      "áíóúñÑªº¿Ò¬½¼¡«»",
      "░▒▓│┤╡╢╖╕╣║╗╝╜╛┐",
      "└┴┬├─┼╞╟╚╔╩╦╠═╬╧",
      "╨╤╥╙╘╒╓╫╪┘┌█▄▌▐▀",
      "αßΓπΣσµτΦΘΩδ∞φε∩",
      "≡±≥≤⌠⌡÷≈°∙·√ⁿ²■\xa0"] },
  { aliases := ["cp_is", "csibm861", "ibm861"]
    titles := ["cp861"]
    upper := [
      "ÇüéâäàåçêëèÐðÞÄÅ",
      "ÉæÆôöþûÝýÖÜø£Ø₧ƒ",
      "áíóúÁÍÓÚ¿⌐¬½¼¡«»",
      "░▒▓│┤╡╢╖╕╣║╗╝╜╛┐",
      "└┴┬├─┼╞╟╚╔╩╦╠═╬╧",
      "╨╤╥╙╘╒╓╫╪┘┌█▄▌▐▀",
      "αßΓπΣσµτΦΘΩδ∞φε∩",
      "≡±≥≤⌠⌡÷≈°∙·√ⁿ²■\xa0"] },
  { aliases := ["cspc862latinhebrew", "ibm862"]
    titles := ["cp862"]
    upper := [
      "אבגדהוזחטיךכלםמן",
      "נסעףפץצקרשת¢£¥₧ƒ",
      "áíóúñÑªº¿⌐¬½¼¡«»",
      "░▒▓│┤╡╢╖╕╣║╗╝╜╛┐",
      "└┴┬├─┼╞╟╚╔╩╦╠═╬╧",
      "╨╤╥╙╘╒╓╫╪┘┌█▄▌▐▀",
      "αßΓπΣσµτΦΘΩδ∞φε∩",
      "≡±≥≤⌠⌡÷≈°∙·√ⁿ²■\xa0"] },
  { aliases := ["csibm863", "ibm863"]
    titles := ["cp863"]
    upper := [
      "ÇüéâÂà¶çêëèïî‗À§",
      "ÉÈÊôËÏûù¤ÔÜ¢£ÙÛƒ",
      "¦´óú¨¸³¯Î⌐¬½¼¾«»",
      "░▒▓│┤╡╢╖╕╣║╗╝╜╛┐",
      "└┴┬├─┼╞╟╚╔╩╦╠═╬╧",
      "╨╤╥╙╘╒╓╫╪┘┌█▄▌▐▀",
      "αßΓπΣσµτΦΘΩδ∞φε∩",
      "≡±≥≤⌠⌡÷≈°∙·√ⁿ²■\xa0"] },
  { aliases := ["csibm865", "ibm865"]
    titles := ["cp865"]
    upper := [
      "ÇüéâäàåçêëèïîìÄÅ",
      "ÉæÆôöòûùÿÖÜø£Ø₧ƒ",
      "áíóúñÑªº¿⌐¬½¼¡«¤",
      "░▒▓│┤╡╢╖╕╣║╗╝╜╛┐",
      "└┴┬├─┼╞╟╚╔╩╦╠═╬╧",
      "╨╤╥╙╘╒╓╫╪┘┌█▄▌▐▀",
      "αßΓπΣσµτΦΘΩδ∞φε∩",
      "≡±≥≤⌠⌡÷≈°∙·√ⁿ²■\xa0"] },
  { aliases := ["csibm866", "ibm866"]
    titles := ["cp866"]
    upper := [
      "АБВГДЕЖЗИЙКЛМНОП",
      "РСТУФХЦЧШЩЪЫЬЭЮЯ",
      "абвгдежзийклмноп",
      "░▒▓│┤╡╢╖╕╣║╗╝╜╛┐",
      "└┴┬├─┼╞╟╚╔╩╦╠═╬╧",
      "╨╤╥╙╘╒╓╫╪┘┌█▄▌▐▀",
      "рстуфхцчшщъыьэюя",
      "ЁёЄєЇїЎў°∙·√№¤■\xa0"] },
  { aliases := ["cp_gr", "csibm869", "ibm869"]
    titles := ["cp869"]
    upper := [
      "\x00\x00\x00\x00\x00\x00Ά\x00·¬¦‘’Έ―Ή",
      "ΊΪΌ\x00\x00ΎΫ©Ώ²³ά£έήί",
      "ϊΐόύΑΒΓΔΕΖΗ½ΘΙ«»",
      "░▒▓│┤ΚΛΜΝ╣║╗╝ΞΟ┐",
      "└┴┬├─┼ΠΡ╚╔╩╦╠═╬Σ",
      "ΤΥΦΧΨΩαβγ┘┌█▄δε▀",
      "ζηθικλμνξοπρσςτ΄",
      "\xad±υφχ§ψ΅°¨ωϋΰώ■\xa0"] },
  { aliases := []
    titles := ["cp874"]
    upper := [
      "€\x00\x00\x00\x00…\x00\x00\x00\x00\x00\x00\x00\x00\x00\x00",
      "\x00‘’“”•–—\x00\x00\x00\x00\x00\x00\x00\x00",
      "\xa0กขฃคฅฆงจฉชซฌญฎฏ",
      "ฐฑฒณดตถทธนบปผฝพฟ",
      "ภมยรฤลฦวศษสหฬอฮฯ",
      "ะ\u0e31าำ\u0e34\u0e35\u0e36\u0e37\u0e38\u0e39\u0e3a\x00\x00\x00\x00฿",
      "เแโใไๅๆ\u0e47\u0e48\u0e49\u0e4a\u0e4b\u0e4c\u0e4d\u0e4e๏",
      "๐๑๒๓๔๕๖๗๘๙๚๛\x00\x00\x00\x00"] },
  { aliases := ["csisolatin2", "iso_8859_2", "iso_8859_2_1987", "iso_ir_101", "l2", "latin2"]
    titles := ["iso8859_2"]
    upper := [
      "",
      "",
      "\xa0Ą˘Ł¤ĽŚ§¨ŠŞŤŹ\xadŽŻ",
      "°ą˛ł´ľśˇ¸šşťź˝žż",
      "ŔÁÂĂÄĹĆÇČÉĘËĚÍÎĎ",
      "ĐŃŇÓÔŐÖ×ŘŮÚŰÜÝŢß",
      "ŕáâăäĺćçčéęëěíîď",
      "đńňóôőö÷řůúűüýţ˙"] },
  { aliases := ["csisolatin3", "iso_8859_3", "iso_8859_3_1988", "iso_ir_109", "l3", "latin3"]
    titles := ["iso8859_3"]
    upper := [
      "",
      "",
      "\xa0Ħ˘£¤\x00Ĥ§¨İŞĞĴ\xad\x00Ż",
      "°ħ²³´µĥ·¸ışğĵ½\x00ż",
      "ÀÁÂ\x00ÄĊĈÇÈÉÊËÌÍÎÏ",
      "\x00ÑÒÓÔĠÖ×ĜÙÚÛÜŬŜß",
      "àáâ\x00äċĉçèéêëìíîï",
      "\x00ñòóôġö÷ĝùúûüŭŝ˙"] },
  { aliases := ["csisolatin4", "iso_8859_4", "iso_8859_4_1988", "iso_ir_110", "l4", "latin4"]
    titles := ["iso8859_4"]
    upper := [
      "",
      "",
      "\xa0ĄĸŖ¤ĨĻ§¨ŠĒĢŦ\xadŽ¯",
      "°ą˛ŗ´ĩļˇ¸šēģŧŊžŋ",
      "ĀÁÂÃÄÅÆĮČÉĘËĖÍÎĪ",
      "ĐŅŌĶÔÕÖ×ØŲÚÛÜŨŪß",
      "āáâãäåæįčéęëėíîī",
      "đņōķôõö÷øųúûüũū˙"] },
  { aliases := ["csisolatin5", "iso_8859_9", "iso_8859_9_1989", "iso_ir_148", "l5", "latin5"]
    titles := ["iso8859_9"]
    upper := [
      "",
      "",
      "",
      "",
      "",
      "ĞÑÒÓÔÕÖ×ØÙÚÛÜİŞß",
      "",
      "ğñòóôõö÷øùúûüışÿ"] },
  { aliases := ["csisolatin6", "iso_8859_10", "iso_8859_10_1992", "iso_ir_157", "l6", "latin6"]
    titles := ["iso8859_10"]
    upper := [
      "",
      "",
      "\xa0ĄĒĢĪĨĶ§ĻĐŠŦŽ\xadŪŊ",
      "°ąēģīĩķ·ļđšŧž―ūŋ",
      "ĀÁÂÃÄÅÆĮČÉĘËĖÍÎÏ",
      "ÐŅŌÓÔÕÖŨØŲÚÛÜÝÞß",
      "āáâãäåæįčéęëėíîï",
      "ðņōóôõöũøųúûüýþĸ"] },
  { aliases := ["csisolatincyrillic", "cyrillic", "iso_8859_5", "iso_8859_5_1988", "iso_ir_144"]
    titles := ["iso8859_5"]
    upper := [
      "",
      "",
      "\xa0ЁЂЃЄЅІЇЈЉЊЋЌ\xadЎЏ",
      "АБВГДЕЖЗИЙКЛМНОП",
      "РСТУФХЦЧШЩЪЫЬЭЮЯ",
      "абвгдежзийклмноп",
      "рстуфхцчшщъыьэюя",
      "№ёђѓєѕіїјљњћќ§ўџ"] },
  { aliases := ["csisolatingreek", "ecma_118", "elot_928", "greek", "greek8", "iso_8859_7",
        "iso_8859_7_1987", "iso_ir_126"]
    titles := ["iso8859_7"]
    upper := [
      "",
      "",
      "\xa0‘’£€₯¦§¨©ͺ«¬\xad\x00―",
      "°±²³΄΅Ά·ΈΉΊ»Ό½ΎΏ",
      "ΐΑΒΓΔΕΖΗΘΙΚΛΜΝΞΟ",
      "ΠΡ\x00ΣΤΥΦΧΨΩΪΫάέήί",
      "ΰαβγδεζηθικλμνξο",
      "πρςστυφχψωϊϋόύώ\x00"] },
  { aliases := ["csisolatinhebrew", "hebrew", "iso_8859_8", "iso_8859_8_1988", "iso_ir_138"]
    titles := ["iso8859_8"]
    upper := [
      "",
      "",
      "\xa0\x00¢£¤¥¦§¨©×«¬\xad®¯",
      "°±²³´µ¶·¸¹÷»¼½¾\x00",
      "\x00\x00\x00\x00\x00\x00\x00\x00\x00\x00\x00\x00\x00\x00\x00\x00",
      "\x00\x00\x00\x00\x00\x00\x00\x00\x00\x00\x00\x00\x00\x00\x00‗",
      "אבגדהוזחטיךכלםמן",
      "נסעףפץצקרשת\x00\x00\u200e\u200f\x00"] },
  { aliases := ["cskoi8r"]
    titles := ["koi8_r"]
    upper := [
      "─│┌┐└┘├┤┬┴┼▀▄█▌▐",
      "░▒▓⌠■∙√≈≤≥\xa0⌡°²·÷",
      "═║╒ё╓╔╕╖╗╘╙╚╛╜╝╞",
      "╟╠╡Ё╢╣╤╥╦╧╨╩╪╫╬©",
      "юабцдефгхийклмно",
      "пярстужвьызшэщчъ",
      "ЮАБЦДЕФГХИЙКЛМНО",
      "ПЯРСТУЖВЬЫЗШЭЩЧЪ"] },
  { aliases := ["iso_8859_11", "iso_8859_11_2001", "thai"]
    titles := ["iso8859_11"]
    upper := [
      "",
      "",
      "\xa0กขฃคฅฆงจฉชซฌญฎฏ",
      "ฐฑฒณดตถทธนบปผฝพฟ",
      "ภมยรฤลฦวศษสหฬอฮฯ",
      "ะ\u0e31าำ\u0e34\u0e35\u0e36\u0e37\u0e38\u0e39\u0e3a\x00\x00\x00\x00฿",
      "เแโใไๅๆ\u0e47\u0e48\u0e49\u0e4a\u0e4b\u0e4c\u0e4d\u0e4e๏",
      "๐๑๒๓๔๕๖๗๘๙๚๛\x00\x00\x00\x00"] },
  { aliases := ["iso_8859_13", "l7", "latin7"]
    titles := ["iso8859_13"]
    upper := [
      "",
      "",
      "\xa0”¢£¤„¦§Ø©Ŗ«¬\xad®Æ",
      "°±²³“µ¶·ø¹ŗ»¼½¾æ",
      "ĄĮĀĆÄÅĘĒČÉŹĖĢĶĪĻ",
      "ŠŃŅÓŌÕÖ×ŲŁŚŪÜŻŽß",
      "ąįāćäåęēčéźėģķīļ",
      "šńņóōõö÷ųłśūüżž’"] },
  { aliases := ["iso_8859_14", "iso_8859_14_1998", "iso_celtic", "iso_ir_199", "l8", "latin8"]
    titles := ["iso8859_14"]
    upper := [
      "",
      "",
      "\xa0Ḃḃ£ĊċḊ§Ẁ©ẂḋỲ\xad®Ÿ",
      "ḞḟĠġṀṁ¶ṖẁṗẃṠỳẄẅṡ",
      "",
      "ŴÑÒÓÔÕÖṪØÙÚÛÜÝŶß",
      "",
      "ŵñòóôõöṫøùúûüýŷÿ"] },
  { aliases := ["iso_8859_15", "l9", "latin9"]
    titles := ["iso8859_15"]
    upper := [
      "",
      "",
      "\xa0¡¢£€¥Š§š©ª«¬\xad®¯",
      "°±²³Žµ¶·ž¹º»ŒœŸ¿",
      "",
      "",
      "",
      ""] },
  { aliases := ["iso_8859_16", "iso_8859_16_2001", "iso_ir_226", "l10", "latin10"]
    titles := ["iso8859_16"]
    upper := [
      "",
      "",
      "\xa0ĄąŁ€„Š§š©Ș«Ź\xadźŻ",
      "°±ČłŽ”¶·žčș»ŒœŸż",
      "ÀÁÂĂÄĆÆÇÈÉÊËÌÍÎÏ",
      "ĐŃÒÓÔŐÖŚŰÙÚÛÜĘȚß",
      "àáâăäćæçèéêëìíîï",
      "đńòóôőöśűùúûüęțÿ"] },
  { aliases := ["iso_ir_166", "tis620", "tis_620_0", "tis_620_2529_0", "tis_620_2529_1"]
    titles := ["tis_620"]
    upper := [
      "",
      "",
      "\x00กขฃคฅฆงจฉชซฌญฎฏ",
      "ฐฑฒณดตถทธนบปผฝพฟ",
      "ภมยรฤลฦวศษสหฬอฮฯ",
      "ะ\u0e31าำ\u0e34\u0e35\u0e36\u0e37\u0e38\u0e39\u0e3a\x00\x00\x00\x00฿",
      "เแโใไๅๆ\u0e47\u0e48\u0e49\u0e4a\u0e4b\u0e4c\u0e4d\u0e4e๏",
      "๐๑๒๓๔๕๖๗๘๙๚๛\x00\x00\x00\x00"] },
  { aliases := []
    titles := ["koi8_t"]
    upper := [
      "қғ‚Ғ„…†‡\x00‰ҳ‹ҲҷҶ\x00",
      "Қ‘’“”•–—\x00™\x00›\x00\x00\x00\x00",
      "\x00ӯӮё¤ӣ¦§\x00\x00\x00«¬\xad®\x00",
      "°±²Ё\x00Ӣ¶·\x00№\x00»\x00\x00\x00©",
      "юабцдефгхийклмно",
      "пярстужвьызшэщчъ",
      "ЮАБЦДЕФГХИЙКЛМНО",
      "ПЯРСТУЖВЬЫЗШЭЩЧЪ"] },
  { aliases := []
    titles := ["koi8_u"]
    upper := [
      "─│┌┐└┘├┤┬┴┼▀▄█▌▐",
      "░▒▓⌠■∙√≈≤≥\xa0⌡°²·÷",
      "═║╒ёє╔ії╗╘╙╚╛ґ╝╞",
      "╟╠╡ЁЄ╣ІЇ╦╧╨╩╪Ґ╬©",
      "юабцдефгхийклмно",
      "пярстужвьызшэщчъ",
      "ЮАБЦДЕФГХИЙКЛМНО",
      "ПЯРСТУЖВЬЫЗШЭЩЧЪ"] },
  { aliases := ["kz_1048", "rk1048", "strk1048_2002"]
    titles := ["kz1048"]
    upper := [
      "ЂЃ‚ѓ„…†‡€‰Љ‹ЊҚҺЏ",
      "ђ‘’“”•–—\x00™љ›њқһџ",
      "\xa0ҰұӘ¤Ө¦§Ё©Ғ«¬\xad®Ү",
      "°±Ііөµ¶·ё№ғ»әҢңү",
      "АБВГДЕЖЗИЙКЛМНОП",
      "РСТУФХЦЧШЩЪЫЬЭЮЯ",
      "абвгдежзийклмноп",
      "рстуфхцчшщъыьэюя"] },
  { aliases := ["mac_centeuro", "maccentraleurope", "maclatin2"]
    titles := ["mac_latin2"]
    upper := [
      "ÄĀāÉĄÖÜáąČäčĆćéŹ",
      "źĎíďĒēĖóėôöõúĚěü",
      "†°Ę£§•¶ß®©™ę¨≠ģĮ",
      "įĪ≤≥īĶ∂∑łĻļĽľĹĺŅ",
      "ņŃ¬√ńŇ∆«»…\xa0ňŐÕőŌ",
      "–—“”‘’÷◊ōŔŕŘ‹›řŖ",
      "ŗŠ‚„šŚśÁŤťÍŽžŪÓÔ",
      "ūŮÚůŰűŲųÝýķŻŁżĢˇ"] },
  { aliases := []
    titles := ["mac_croatian"]
    upper := [
      "ÄÅÇÉÑÖÜáàâäãåçéè",
      "êëíìîïñóòôöõúùûü",
      "†°¢£§•¶ß®Š™´¨≠ŽØ",
      "∞±≤≥∆µ∂∑∏š∫ªºΩžø",
      "¿¡¬√ƒ≈Ć«Č…\xa0ÀÃÕŒœ",
      "Đ—“”‘’÷◊\uf8ff©⁄€‹›Æ»",
      "–·‚„‰ÂćÁčÈÍÎÏÌÓÔ",
      "đÒÚÛÙıˆ˜¯πË˚¸Êæˇ"] },
  { aliases := ["maccyrillic"]
    titles := ["mac_cyrillic"]
    upper := [
      "АБВГДЕЖЗИЙКЛМНОП",
      "РСТУФХЦЧШЩЪЫЬЭЮЯ",
      "†°Ґ£§•¶І®©™Ђђ≠Ѓѓ",
      "∞±≤≥іµґЈЄєЇїЉљЊњ",
      "јЅ¬√ƒ≈∆«»…\xa0ЋћЌќѕ",
      "–—“”‘’÷„ЎўЏџ№Ёёя",
      "абвгдежзийклмноп",
      "рстуфхцчшщъыьэю€"] },
  { aliases := ["macgreek"]
    titles := ["mac_greek"]
    upper := [
      "Ä¹²É³ÖÜ΅àâä΄¨çéè",
      "êë£™îï•½‰ôö¦€ùûü",
      "†ΓΔΘΛΞΠß®©ΣΪ§≠°·",
      "Α±≤≥¥ΒΕΖΗΙΚΜΦΫΨΩ",
      "άΝ¬ΟΡ≈Τ«»…\xa0ΥΧΆΈœ",
      "–―“”‘’÷ΉΊΌΎέήίόΏ",
      "ύαβψδεφγηιξκλμνο",
      "πώρστθωςχυζϊϋΐΰ\xad"] },
  { aliases := ["maciceland"]
    titles := ["mac_iceland"]
    upper := [
      "ÄÅÇÉÑÖÜáàâäãåçéè",
      "êëíìîïñóòôöõúùûü",
      "Ý°¢£§•¶ß®©™´¨≠ÆØ",
      "∞±≤≥¥µ∂∑∏π∫ªºΩæø",
      "¿¡¬√ƒ≈∆«»…\xa0ÀÃÕŒœ",
      "–—“”‘’÷◊ÿŸ⁄€ÐðÞþ",
      "ý·‚„‰ÂÊÁËÈÍÎÏÌÓÔ",
      "\uf8ffÒÚÛÙıˆ˜¯˘˙˚¸˝˛ˇ"] },
  { aliases := ["macintosh", "macroman"]
    titles := ["mac_roman"]
    upper := [
      "ÄÅÇÉÑÖÜáàâäãåçéè",
      "êëíìîïñóòôöõúùûü",
      "†°¢£§•¶ß®©™´¨≠ÆØ",
      "∞±≤≥¥µ∂∑∏π∫ªºΩæø",
      "¿¡¬√ƒ≈∆«»…\xa0ÀÃÕŒœ",
      "–—“”‘’÷◊ÿŸ⁄€‹›ﬁﬂ",
      "‡·‚„‰ÂÊÁËÈÍÎÏÌÓÔ",
      "\uf8ffÒÚÛÙıˆ˜¯˘˙˚¸˝˛ˇ"] },
  { aliases := []
    titles := ["mac_romanian"]
    upper := [
      "ÄÅÇÉÑÖÜáàâäãåçéè",
      "êëíìîïñóòôöõúùûü",
      "†°¢£§•¶ß®©™´¨≠ĂȘ",
      "∞±≤≥¥µ∂∑∏π∫ªºΩăș",
      "¿¡¬√ƒ≈∆«»…\xa0ÀÃÕŒœ",
      "–—“”‘’÷◊ÿŸ⁄€‹›Țț",
      "‡·‚„‰ÂÊÁËÈÍÎÏÌÓÔ",
      "\uf8ffÒÚÛÙıˆ˜¯˘˙˚¸˝˛ˇ"] },
  { aliases := ["macturkish"]
    titles := ["mac_turkish"]
    upper := [
      "ÄÅÇÉÑÖÜáàâäãåçéè",
      "êëíìîïñóòôöõúùûü",
      "†°¢£§•¶ß®©™´¨≠ÆØ",
      "∞±≤≥¥µ∂∑∏π∫ªºΩæø",
      "¿¡¬√ƒ≈∆«»…\xa0ÀÃÕŒœ",
      "–—“”‘’÷◊ÿŸĞğİıŞş",
      "‡·‚„‰ÂÊÁËÈÍÎÏÌÓÔ",
      "\uf8ffÒÚÛÙ\uf8a0ˆ˜¯˘˙˚¸˝˛ˇ"] },
  { aliases := []
    titles := ["palmos"]
    upper := [
      "€\x81‚ƒ„…†‡ˆ‰Š‹Œ♦♣♥",
      "♠‘’“”•–—˜™š\x9bœ\x9d\x9eŸ",
      "",
      "",
      "",
      "",
      "",
      ""] }]

/-- The character of a byte. -/
def Alphabet.char? (a : Alphabet) (byte : Nat) : Option Char :=
  if byte < 128 then
    if a.without.toList.contains (Char.ofNat byte) then none else some (Char.ofNat byte)
  else
    match a.upper[(byte - 128) / 16]? with
    | none => none
    | some "" => some (Char.ofNat byte)
    | some row => row.toList[byte % 16]?.filter fun c => c.toNat != 0

/-- Whether an encoding with the given aliases and titles answers to a name. -/
def answersTo (aliases titles : List String) (name : String) : Bool :=
  aliases.contains name || aliases.contains (name.map fun c => if c = '.' then '_' else c) ||
    titles.contains name

/-- Whether an alphabet answers to a name. -/
def Alphabet.answers (a : Alphabet) (name : String) : Bool := answersTo a.aliases a.titles name

end Wiring.Xml
