import Reckon.Text.CharacterClass

/-!
# Quoted text

`quote` writes a text between double quotes and `quoteChar` a character between single quotes, so
that every character shows: tab, carriage return, newline, null, the backslash and the quote in
use have a short escape, and a character that does not show by itself is written by its number,
`\u` and the lower-case hexadecimal digits between braces. All others stand for themselves.

`isInvisible` holds of the characters that are written by number: control, format, private,
unassigned and separator characters other than the space, and the characters that extend the one
before them.
-/

set_option autoImplicit false

namespace Reckon.Text

/-! ## Characters that do not show -/

/-- The code points that do not show by themselves. -/
def invisible : CodePoints :=
  [.span 0x1 0x8, .span 0xb 0xc, .span 0xe 0x1f, .span 0x7f 0xa0, .one 0xad, .span 0x300 0x36f,
   .span 0x378 0x379, .span 0x380 0x383, .one 0x38b, .one 0x38d, .one 0x3a2, .span 0x483 0x489,
   .one 0x530, .span 0x557 0x558, .span 0x58b 0x58c, .span 0x590 0x5bd, .one 0x5bf,
   .span 0x5c1 0x5c2, .span 0x5c4 0x5c5, .span 0x5c7 0x5cf, .span 0x5eb 0x5ee, .span 0x5f5 0x605,
   .span 0x610 0x61a, .one 0x61c, .span 0x64b 0x65f, .one 0x670, .span 0x6d6 0x6dd,
   .span 0x6df 0x6e4, .span 0x6e7 0x6e8, .span 0x6ea 0x6ed, .span 0x70e 0x70f, .one 0x711,
   .span 0x730 0x74c, .span 0x7a6 0x7b0, .span 0x7b2 0x7bf, .span 0x7eb 0x7f3, .span 0x7fb 0x7fd,
   .span 0x816 0x819, .span 0x81b 0x823, .span 0x825 0x827, .span 0x829 0x82f, .one 0x83f,
   .span 0x859 0x85d, .one 0x85f, .span 0x86b 0x86f, .span 0x890 0x89f, .span 0x8ca 0x902,
   .one 0x93a, .one 0x93c, .span 0x941 0x948, .one 0x94d, .span 0x951 0x957, .span 0x962 0x963,
   .one 0x981, .one 0x984, .span 0x98d 0x98e, .span 0x991 0x992, .one 0x9a9, .one 0x9b1,
   .span 0x9b3 0x9b5, .span 0x9ba 0x9bc, .one 0x9be, .span 0x9c1 0x9c6, .span 0x9c9 0x9ca,
   .one 0x9cd, .span 0x9cf 0x9db, .one 0x9de, .span 0x9e2 0x9e5, .span 0x9fe 0xa02, .one 0xa04,
   .span 0xa0b 0xa0e, .span 0xa11 0xa12, .one 0xa29, .one 0xa31, .one 0xa34, .one 0xa37,
   .span 0xa3a 0xa3d, .span 0xa41 0xa58, .one 0xa5d, .span 0xa5f 0xa65, .span 0xa70 0xa71,
   .one 0xa75, .span 0xa77 0xa82, .one 0xa84, .one 0xa8e, .one 0xa92, .one 0xaa9, .one 0xab1,
   .one 0xab4, .span 0xaba 0xabc, .span 0xac1 0xac8, .one 0xaca, .span 0xacd 0xacf,
   .span 0xad1 0xadf, .span 0xae2 0xae5, .span 0xaf2 0xaf8, .span 0xafa 0xb01, .one 0xb04,
   .span 0xb0d 0xb0e, .span 0xb11 0xb12, .one 0xb29, .one 0xb31, .one 0xb34, .span 0xb3a 0xb3c,
   .span 0xb3e 0xb3f, .span 0xb41 0xb46, .span 0xb49 0xb4a, .span 0xb4d 0xb5b, .one 0xb5e,
   .span 0xb62 0xb65, .span 0xb78 0xb82, .one 0xb84, .span 0xb8b 0xb8d, .one 0xb91,
   .span 0xb96 0xb98, .one 0xb9b, .one 0xb9d, .span 0xba0 0xba2, .span 0xba5 0xba7,
   .span 0xbab 0xbad, .span 0xbba 0xbbe, .one 0xbc0, .span 0xbc3 0xbc5, .one 0xbc9,
   .span 0xbcd 0xbcf, .span 0xbd1 0xbe5, .span 0xbfb 0xc00, .one 0xc04, .one 0xc0d, .one 0xc11,
   .one 0xc29, .span 0xc3a 0xc3c, .span 0xc3e 0xc40, .span 0xc45 0xc57, .one 0xc5b,
   .span 0xc5e 0xc5f, .span 0xc62 0xc65, .span 0xc70 0xc76, .one 0xc81, .one 0xc8d, .one 0xc91,
   .one 0xca9, .one 0xcb4, .span 0xcba 0xcbc, .span 0xcbf 0xcc0, .one 0xcc2, .span 0xcc5 0xcdb,
   .one 0xcdf, .span 0xce2 0xce5, .one 0xcf0, .span 0xcf4 0xd01, .one 0xd0d, .one 0xd11,
   .span 0xd3b 0xd3c, .one 0xd3e, .span 0xd41 0xd45, .one 0xd49, .one 0xd4d, .span 0xd50 0xd53,
   .one 0xd57, .span 0xd62 0xd65, .span 0xd80 0xd81, .one 0xd84, .span 0xd97 0xd99, .one 0xdb2,
   .one 0xdbc, .span 0xdbe 0xdbf, .span 0xdc7 0xdcf, .span 0xdd2 0xdd7, .span 0xddf 0xde5,
   .span 0xdf0 0xdf1, .span 0xdf5 0xe00, .one 0xe31, .span 0xe34 0xe3e, .span 0xe47 0xe4e,
   .span 0xe5c 0xe80, .one 0xe83, .one 0xe85, .one 0xe8b, .one 0xea4, .one 0xea6, .one 0xeb1,
   .span 0xeb4 0xebc, .span 0xebe 0xebf, .one 0xec5, .span 0xec7 0xecf, .span 0xeda 0xedb,
   .span 0xee0 0xeff, .span 0xf18 0xf19, .alternate 0xf35 0xf39, .one 0xf48, .span 0xf6d 0xf7e,
   .span 0xf80 0xf84, .span 0xf86 0xf87, .span 0xf8d 0xfbd, .one 0xfc6, .one 0xfcd,
   .span 0xfdb 0xfff, .span 0x102d 0x1030, .span 0x1032 0x1037, .span 0x1039 0x103a,
   .span 0x103d 0x103e, .span 0x1058 0x1059, .span 0x105e 0x1060, .span 0x1071 0x1074,
   .one 0x1082, .span 0x1085 0x1086, .one 0x108d, .one 0x109d, .one 0x10c6, .span 0x10c8 0x10cc,
   .span 0x10ce 0x10cf, .span 0x115f 0x1160, .one 0x1249, .span 0x124e 0x124f, .one 0x1257,
   .one 0x1259, .span 0x125e 0x125f, .one 0x1289, .span 0x128e 0x128f, .one 0x12b1,
   .span 0x12b6 0x12b7, .one 0x12bf, .one 0x12c1, .span 0x12c6 0x12c7, .one 0x12d7, .one 0x1311,
   .span 0x1316 0x1317, .span 0x135b 0x135f, .span 0x137d 0x137f, .span 0x139a 0x139f,
   .span 0x13f6 0x13f7, .span 0x13fe 0x13ff, .one 0x1680, .span 0x169d 0x169f,
   .span 0x16f9 0x16ff, .span 0x1712 0x171e, .span 0x1732 0x1734, .span 0x1737 0x173f,
   .span 0x1752 0x175f, .one 0x176d, .span 0x1771 0x177f, .span 0x17b4 0x17b5,
   .span 0x17b7 0x17bd, .one 0x17c6, .span 0x17c9 0x17d3, .span 0x17dd 0x17df,
   .span 0x17ea 0x17ef, .span 0x17fa 0x17ff, .span 0x180b 0x180f, .span 0x181a 0x181f,
   .span 0x1879 0x187f, .span 0x1885 0x1886, .one 0x18a9, .span 0x18ab 0x18af,
   .span 0x18f6 0x18ff, .span 0x191f 0x1922, .span 0x1927 0x1928, .span 0x192c 0x192f,
   .one 0x1932, .span 0x1939 0x193f, .span 0x1941 0x1943, .span 0x196e 0x196f,
   .span 0x1975 0x197f, .span 0x19ac 0x19af, .span 0x19ca 0x19cf, .span 0x19db 0x19dd,
   .span 0x1a17 0x1a18, .span 0x1a1b 0x1a1d, .one 0x1a56, .span 0x1a58 0x1a60, .one 0x1a62,
   .span 0x1a65 0x1a6c, .span 0x1a73 0x1a7f, .span 0x1a8a 0x1a8f, .span 0x1a9a 0x1a9f,
   .span 0x1aae 0x1b03, .span 0x1b34 0x1b3d, .span 0x1b42 0x1b44, .one 0x1b4d,
   .span 0x1b6b 0x1b73, .span 0x1b80 0x1b81, .span 0x1ba2 0x1ba5, .span 0x1ba8 0x1bad,
   .one 0x1be6, .span 0x1be8 0x1be9, .one 0x1bed, .span 0x1bef 0x1bfb, .span 0x1c2c 0x1c33,
   .span 0x1c36 0x1c3a, .span 0x1c4a 0x1c4c, .span 0x1c8b 0x1c8f, .span 0x1cbb 0x1cbc,
   .span 0x1cc8 0x1cd2, .span 0x1cd4 0x1ce0, .span 0x1ce2 0x1ce8, .one 0x1ced, .one 0x1cf4,
   .span 0x1cf8 0x1cf9, .span 0x1cfb 0x1cff, .span 0x1dc0 0x1dff, .span 0x1f16 0x1f17,
   .span 0x1f1e 0x1f1f, .span 0x1f46 0x1f47, .span 0x1f4e 0x1f4f, .alternate 0x1f58 0x1f5e,
   .span 0x1f7e 0x1f7f, .one 0x1fb5, .one 0x1fc5, .span 0x1fd4 0x1fd5, .one 0x1fdc,
   .span 0x1ff0 0x1ff1, .one 0x1ff5, .span 0x1fff 0x200f, .span 0x2028 0x202f,
   .span 0x205f 0x206f, .span 0x2072 0x2073, .one 0x208f, .span 0x209d 0x209f,
   .span 0x20c2 0x20ff, .span 0x218c 0x218f, .span 0x242a 0x243f, .span 0x244b 0x245f,
   .span 0x2b74 0x2b75, .span 0x2cef 0x2cf1, .span 0x2cf4 0x2cf8, .one 0x2d26,
   .span 0x2d28 0x2d2c, .span 0x2d2e 0x2d2f, .span 0x2d68 0x2d6e, .span 0x2d71 0x2d7f,
   .span 0x2d97 0x2d9f, .one 0x2da7, .one 0x2daf, .one 0x2db7, .one 0x2dbf, .one 0x2dc7,
   .one 0x2dcf, .one 0x2dd7, .span 0x2ddf 0x2dff, .span 0x2e5e 0x2e7f, .one 0x2e9a,
   .span 0x2ef4 0x2eff, .span 0x2fd6 0x2fef, .one 0x3000, .span 0x302a 0x302f, .one 0x3040,
   .span 0x3097 0x309a, .span 0x3100 0x3104, .one 0x3130, .one 0x3164, .one 0x318f,
   .span 0x31e6 0x31ee, .one 0x321f, .span 0xa48d 0xa48f, .span 0xa4c7 0xa4cf,
   .span 0xa62c 0xa63f, .span 0xa66f 0xa672, .span 0xa674 0xa67d, .span 0xa69e 0xa69f,
   .span 0xa6f0 0xa6f1, .span 0xa6f8 0xa6ff, .span 0xa7dd 0xa7f0, .one 0xa802, .one 0xa806,
   .one 0xa80b, .span 0xa825 0xa826, .span 0xa82c 0xa82f, .span 0xa83a 0xa83f,
   .span 0xa878 0xa87f, .span 0xa8c4 0xa8cd, .span 0xa8da 0xa8f1, .one 0xa8ff,
   .span 0xa926 0xa92d, .span 0xa947 0xa951, .span 0xa953 0xa95e, .span 0xa97d 0xa982,
   .one 0xa9b3, .span 0xa9b6 0xa9b9, .span 0xa9bc 0xa9bd, .one 0xa9c0, .one 0xa9ce,
   .span 0xa9da 0xa9dd, .one 0xa9e5, .one 0xa9ff, .span 0xaa29 0xaa2e, .span 0xaa31 0xaa32,
   .span 0xaa35 0xaa3f, .one 0xaa43, .one 0xaa4c, .span 0xaa4e 0xaa4f, .span 0xaa5a 0xaa5b,
   .one 0xaa7c, .one 0xaab0, .span 0xaab2 0xaab4, .span 0xaab7 0xaab8, .span 0xaabe 0xaabf,
   .one 0xaac1, .span 0xaac3 0xaada, .span 0xaaec 0xaaed, .span 0xaaf6 0xab00,
   .span 0xab07 0xab08, .span 0xab0f 0xab10, .span 0xab17 0xab1f, .one 0xab27, .one 0xab2f,
   .span 0xab6c 0xab6f, .one 0xabe5, .one 0xabe8, .span 0xabed 0xabef, .span 0xabfa 0xabff,
   .span 0xd7a4 0xd7af, .span 0xd7c7 0xd7ca, .span 0xd7fc 0xd7ff, .span 0xe000 0xf8ff,
   .span 0xfa6e 0xfa6f, .span 0xfada 0xfaff, .span 0xfb07 0xfb12, .span 0xfb18 0xfb1c,
   .one 0xfb1e, .one 0xfb37, .one 0xfb3d, .one 0xfb3f, .one 0xfb42, .one 0xfb45,
   .span 0xfdd0 0xfdef, .span 0xfe00 0xfe0f, .span 0xfe1a 0xfe2f, .one 0xfe53, .one 0xfe67,
   .span 0xfe6c 0xfe6f, .one 0xfe75, .span 0xfefd 0xff00, .one 0xffa0, .span 0xffbf 0xffc1,
   .span 0xffc8 0xffc9, .span 0xffd0 0xffd1, .span 0xffd8 0xffd9, .span 0xffdd 0xffdf,
   .one 0xffe7, .span 0xffef 0xfffb, .span 0xfffe 0xffff, .one 0x1000c, .one 0x10027,
   .one 0x1003b, .one 0x1003e, .span 0x1004e 0x1004f, .span 0x1005e 0x1007f,
   .span 0x100fb 0x100ff, .span 0x10103 0x10106, .span 0x10134 0x10136, .one 0x1018f,
   .span 0x1019d 0x1019f, .span 0x101a1 0x101cf, .span 0x101fd 0x1027f, .span 0x1029d 0x1029f,
   .span 0x102d1 0x102e0, .span 0x102fc 0x102ff, .span 0x10324 0x1032c, .span 0x1034b 0x1034f,
   .span 0x10376 0x1037f, .one 0x1039e, .span 0x103c4 0x103c7, .span 0x103d6 0x103ff,
   .span 0x1049e 0x1049f, .span 0x104aa 0x104af, .span 0x104d4 0x104d7, .span 0x104fc 0x104ff,
   .span 0x10528 0x1052f, .span 0x10564 0x1056e, .one 0x1057b, .one 0x1058b, .one 0x10593,
   .one 0x10596, .one 0x105a2, .one 0x105b2, .one 0x105ba, .span 0x105bd 0x105bf,
   .span 0x105f4 0x105ff, .span 0x10737 0x1073f, .span 0x10756 0x1075f, .span 0x10768 0x1077f,
   .one 0x10786, .one 0x107b1, .span 0x107bb 0x107ff, .span 0x10806 0x10807, .one 0x10809,
   .one 0x10836, .span 0x10839 0x1083b, .span 0x1083d 0x1083e, .one 0x10856,
   .span 0x1089f 0x108a6, .span 0x108b0 0x108df, .one 0x108f3, .span 0x108f6 0x108fa,
   .span 0x1091c 0x1091e, .span 0x1093a 0x1093e, .span 0x1095a 0x1097f, .span 0x109b8 0x109bb,
   .span 0x109d0 0x109d1, .span 0x10a01 0x10a0f, .one 0x10a14, .one 0x10a18,
   .span 0x10a36 0x10a3f, .span 0x10a49 0x10a4f, .span 0x10a59 0x10a5f, .span 0x10aa0 0x10abf,
   .span 0x10ae5 0x10aea, .span 0x10af7 0x10aff, .span 0x10b36 0x10b38, .span 0x10b56 0x10b57,
   .span 0x10b73 0x10b77, .span 0x10b92 0x10b98, .span 0x10b9d 0x10ba8, .span 0x10bb0 0x10bff,
   .span 0x10c49 0x10c7f, .span 0x10cb3 0x10cbf, .span 0x10cf3 0x10cf9, .span 0x10d24 0x10d2f,
   .span 0x10d3a 0x10d3f, .span 0x10d66 0x10d6d, .span 0x10d86 0x10d8d, .span 0x10d90 0x10e5f,
   .one 0x10e7f, .span 0x10eaa 0x10eac, .span 0x10eae 0x10eaf, .span 0x10eb2 0x10ec1,
   .span 0x10ec8 0x10ecf, .span 0x10ed9 0x10eff, .span 0x10f28 0x10f2f, .span 0x10f46 0x10f50,
   .span 0x10f5a 0x10f6f, .span 0x10f82 0x10f85, .span 0x10f8a 0x10faf, .span 0x10fcc 0x10fdf,
   .span 0x10ff7 0x10fff, .one 0x11001, .span 0x11038 0x11046, .span 0x1104e 0x11051,
   .one 0x11070, .span 0x11073 0x11074, .span 0x11076 0x11081, .span 0x110b3 0x110b6,
   .span 0x110b9 0x110ba, .one 0x110bd, .span 0x110c2 0x110cf, .span 0x110e9 0x110ef,
   .span 0x110fa 0x11102, .span 0x11127 0x1112b, .span 0x1112d 0x11135, .span 0x11148 0x1114f,
   .one 0x11173, .span 0x11177 0x11181, .span 0x111b6 0x111be, .one 0x111c0,
   .span 0x111c9 0x111cc, .one 0x111cf, .one 0x111e0, .span 0x111f5 0x111ff, .one 0x11212,
   .span 0x1122f 0x11231, .span 0x11234 0x11237, .one 0x1123e, .span 0x11241 0x1127f,
   .one 0x11287, .one 0x11289, .one 0x1128e, .one 0x1129e, .span 0x112aa 0x112af, .one 0x112df,
   .span 0x112e3 0x112ef, .span 0x112fa 0x11301, .one 0x11304, .span 0x1130d 0x1130e,
   .span 0x11311 0x11312, .one 0x11329, .one 0x11331, .one 0x11334, .span 0x1133a 0x1133c,
   .one 0x1133e, .one 0x11340, .span 0x11345 0x11346, .span 0x11349 0x1134a,
   .span 0x1134d 0x1134f, .span 0x11351 0x1135c, .span 0x11364 0x1137f, .one 0x1138a,
   .span 0x1138c 0x1138d, .one 0x1138f, .one 0x113b6, .one 0x113b8, .span 0x113bb 0x113c9,
   .one 0x113cb, .span 0x113ce 0x113d0, .one 0x113d2, .one 0x113d6, .span 0x113d9 0x113ff,
   .span 0x11438 0x1143f, .span 0x11442 0x11444, .one 0x11446, .one 0x1145c, .one 0x1145e,
   .span 0x11462 0x1147f, .one 0x114b0, .span 0x114b3 0x114b8, .one 0x114ba, .one 0x114bd,
   .span 0x114bf 0x114c0, .span 0x114c2 0x114c3, .span 0x114c8 0x114cf, .span 0x114da 0x1157f,
   .one 0x115af, .span 0x115b2 0x115b7, .span 0x115bc 0x115bd, .span 0x115bf 0x115c0,
   .span 0x115dc 0x115ff, .span 0x11633 0x1163a, .one 0x1163d, .span 0x1163f 0x11640,
   .span 0x11645 0x1164f, .span 0x1165a 0x1165f, .span 0x1166d 0x1167f, .one 0x116ab,
   .one 0x116ad, .span 0x116b0 0x116b7, .span 0x116ba 0x116bf, .span 0x116ca 0x116cf,
   .span 0x116e4 0x116ff, .span 0x1171b 0x1171d, .one 0x1171f, .span 0x11722 0x11725,
   .span 0x11727 0x1172f, .span 0x11747 0x117ff, .span 0x1182f 0x11837, .span 0x11839 0x1183a,
   .span 0x1183c 0x1189f, .span 0x118f3 0x118fe, .span 0x11907 0x11908, .span 0x1190a 0x1190b,
   .one 0x11914, .one 0x11917, .one 0x11930, .one 0x11936, .span 0x11939 0x1193e, .one 0x11943,
   .span 0x11947 0x1194f, .span 0x1195a 0x1199f, .span 0x119a8 0x119a9, .span 0x119d4 0x119db,
   .one 0x119e0, .span 0x119e5 0x119ff, .span 0x11a01 0x11a0a, .span 0x11a33 0x11a38,
   .span 0x11a3b 0x11a3e, .span 0x11a47 0x11a4f, .span 0x11a51 0x11a56, .span 0x11a59 0x11a5b,
   .span 0x11a8a 0x11a96, .span 0x11a98 0x11a99, .span 0x11aa3 0x11aaf, .span 0x11af9 0x11aff,
   .span 0x11b0a 0x11b60, .span 0x11b62 0x11b64, .one 0x11b66, .span 0x11b68 0x11bbf,
   .span 0x11be2 0x11bef, .span 0x11bfa 0x11bff, .one 0x11c09, .span 0x11c30 0x11c3d,
   .one 0x11c3f, .span 0x11c46 0x11c4f, .span 0x11c6d 0x11c6f, .span 0x11c90 0x11ca8,
   .span 0x11caa 0x11cb0, .span 0x11cb2 0x11cb3, .span 0x11cb5 0x11cff, .one 0x11d07,
   .one 0x11d0a, .span 0x11d31 0x11d45, .span 0x11d47 0x11d4f, .span 0x11d5a 0x11d5f,
   .one 0x11d66, .one 0x11d69, .span 0x11d8f 0x11d92, .alternate 0x11d95 0x11d99,
   .span 0x11d9a 0x11d9f, .span 0x11daa 0x11daf, .span 0x11ddc 0x11ddf, .span 0x11dea 0x11edf,
   .span 0x11ef3 0x11ef4, .span 0x11ef9 0x11f01, .one 0x11f11, .span 0x11f36 0x11f3d,
   .span 0x11f40 0x11f42, .span 0x11f5a 0x11faf, .span 0x11fb1 0x11fbf, .span 0x11ff2 0x11ffe,
   .span 0x1239a 0x123ff, .one 0x1246f, .span 0x12475 0x1247f, .span 0x12544 0x12f8f,
   .span 0x12ff3 0x12fff, .span 0x13430 0x13440, .span 0x13447 0x1345f, .span 0x143fb 0x143ff,
   .span 0x14647 0x160ff, .span 0x1611e 0x16129, .span 0x1612d 0x1612f, .span 0x1613a 0x167ff,
   .span 0x16a39 0x16a3f, .one 0x16a5f, .span 0x16a6a 0x16a6d, .one 0x16abf,
   .span 0x16aca 0x16acf, .span 0x16aee 0x16af4, .span 0x16af6 0x16aff, .span 0x16b30 0x16b36,
   .span 0x16b46 0x16b4f, .one 0x16b5a, .one 0x16b62, .span 0x16b78 0x16b7c,
   .span 0x16b90 0x16d3f, .span 0x16d7a 0x16e3f, .span 0x16e9b 0x16e9f, .span 0x16eb9 0x16eba,
   .span 0x16ed4 0x16eff, .span 0x16f4b 0x16f4f, .span 0x16f88 0x16f92, .span 0x16fa0 0x16fdf,
   .span 0x16fe4 0x16ff1, .span 0x16ff7 0x16fff, .span 0x18cd6 0x18cfe, .span 0x18d1f 0x18d7f,
   .span 0x18df3 0x1afef, .one 0x1aff4, .one 0x1affc, .one 0x1afff, .span 0x1b123 0x1b131,
   .span 0x1b133 0x1b14f, .span 0x1b153 0x1b154, .span 0x1b156 0x1b163, .span 0x1b168 0x1b16f,
   .span 0x1b2fc 0x1bbff, .span 0x1bc6b 0x1bc6f, .span 0x1bc7d 0x1bc7f, .span 0x1bc89 0x1bc8f,
   .span 0x1bc9a 0x1bc9b, .span 0x1bc9d 0x1bc9e, .span 0x1bca0 0x1cbff, .span 0x1ccfd 0x1ccff,
   .span 0x1ceb4 0x1ceb9, .span 0x1ced1 0x1cedf, .span 0x1cef1 0x1cf4f, .span 0x1cfc4 0x1cfff,
   .span 0x1d0f6 0x1d0ff, .span 0x1d127 0x1d128, .span 0x1d165 0x1d169, .span 0x1d16d 0x1d182,
   .span 0x1d185 0x1d18b, .span 0x1d1aa 0x1d1ad, .span 0x1d1eb 0x1d1ff, .span 0x1d242 0x1d244,
   .span 0x1d246 0x1d2bf, .span 0x1d2d4 0x1d2df, .span 0x1d2f4 0x1d2ff, .span 0x1d357 0x1d35f,
   .span 0x1d379 0x1d3ff, .one 0x1d455, .one 0x1d49d, .span 0x1d4a0 0x1d4a1,
   .span 0x1d4a3 0x1d4a4, .span 0x1d4a7 0x1d4a8, .one 0x1d4ad, .one 0x1d4ba, .one 0x1d4bc,
   .one 0x1d4c4, .one 0x1d506, .span 0x1d50b 0x1d50c, .one 0x1d515, .one 0x1d51d, .one 0x1d53a,
   .one 0x1d53f, .one 0x1d545, .span 0x1d547 0x1d549, .one 0x1d551, .span 0x1d6a6 0x1d6a7,
   .span 0x1d7cc 0x1d7cd, .span 0x1da00 0x1da36, .span 0x1da3b 0x1da6c, .one 0x1da75,
   .one 0x1da84, .span 0x1da8c 0x1deff, .span 0x1df1f 0x1df24, .span 0x1df2b 0x1e02f,
   .span 0x1e06e 0x1e0ff, .span 0x1e12d 0x1e136, .span 0x1e13e 0x1e13f, .span 0x1e14a 0x1e14d,
   .span 0x1e150 0x1e28f, .span 0x1e2ae 0x1e2bf, .span 0x1e2ec 0x1e2ef, .span 0x1e2fa 0x1e2fe,
   .span 0x1e300 0x1e4cf, .span 0x1e4ec 0x1e4ef, .span 0x1e4fa 0x1e5cf, .span 0x1e5ee 0x1e5ef,
   .span 0x1e5fb 0x1e5fe, .span 0x1e600 0x1e6bf, .one 0x1e6df, .one 0x1e6e3, .one 0x1e6e6,
   .span 0x1e6ee 0x1e6ef, .span 0x1e6f5 0x1e6fd, .span 0x1e700 0x1e7df, .one 0x1e7e7,
   .one 0x1e7ec, .one 0x1e7ef, .one 0x1e7ff, .span 0x1e8c5 0x1e8c6, .span 0x1e8d0 0x1e8ff,
   .span 0x1e944 0x1e94a, .span 0x1e94c 0x1e94f, .span 0x1e95a 0x1e95d, .span 0x1e960 0x1ec70,
   .span 0x1ecb5 0x1ed00, .span 0x1ed3e 0x1edff, .one 0x1ee04, .one 0x1ee20, .one 0x1ee23,
   .span 0x1ee25 0x1ee26, .one 0x1ee28, .one 0x1ee33, .alternate 0x1ee38 0x1ee3c,
   .span 0x1ee3d 0x1ee41, .span 0x1ee43 0x1ee46, .alternate 0x1ee48 0x1ee4c, .one 0x1ee50,
   .one 0x1ee53, .span 0x1ee55 0x1ee56, .alternate 0x1ee58 0x1ee60, .one 0x1ee63,
   .span 0x1ee65 0x1ee66, .one 0x1ee6b, .one 0x1ee73, .one 0x1ee78, .one 0x1ee7d, .one 0x1ee7f,
   .one 0x1ee8a, .span 0x1ee9c 0x1eea0, .one 0x1eea4, .one 0x1eeaa, .span 0x1eebc 0x1eeef,
   .span 0x1eef2 0x1efff, .span 0x1f02c 0x1f02f, .span 0x1f094 0x1f09f, .span 0x1f0af 0x1f0b0,
   .one 0x1f0c0, .one 0x1f0d0, .span 0x1f0f6 0x1f0ff, .span 0x1f1ae 0x1f1e5,
   .span 0x1f203 0x1f20f, .span 0x1f23c 0x1f23f, .span 0x1f249 0x1f24f, .span 0x1f252 0x1f25f,
   .span 0x1f266 0x1f2ff, .span 0x1f6d9 0x1f6db, .span 0x1f6ed 0x1f6ef, .span 0x1f6fd 0x1f6ff,
   .span 0x1f7da 0x1f7df, .span 0x1f7ec 0x1f7ef, .span 0x1f7f1 0x1f7ff, .span 0x1f80c 0x1f80f,
   .span 0x1f848 0x1f84f, .span 0x1f85a 0x1f85f, .span 0x1f888 0x1f88f, .span 0x1f8ae 0x1f8af,
   .span 0x1f8bc 0x1f8bf, .span 0x1f8c2 0x1f8cf, .span 0x1f8d9 0x1f8ff, .span 0x1fa58 0x1fa5f,
   .span 0x1fa6e 0x1fa6f, .span 0x1fa7d 0x1fa7f, .span 0x1fa8b 0x1fa8d, .one 0x1fac7,
   .span 0x1fac9 0x1facc, .span 0x1fadd 0x1fade, .span 0x1faeb 0x1faee, .span 0x1faf9 0x1faff,
   .one 0x1fb93, .span 0x1fbfb 0x1ffff, .span 0x2a6e0 0x2a6ff, .span 0x2b81e 0x2b81f,
   .span 0x2ceae 0x2ceaf, .span 0x2ebe1 0x2ebef, .span 0x2ee5e 0x2f7ff, .span 0x2fa1e 0x2ffff,
   .span 0x3134b 0x3134f, .span 0x3347a 0x10ffff]

/-- Does the character not show by itself? -/
def isInvisible (c : Char) : Bool := invisible.contains c

/-! ## Quotes -/

/-- A hexadecimal digit, in lower case. -/
def hexDigit (d : Nat) : Char :=
  if d < 10 then Char.ofNat (48 + d) else Char.ofNat (87 + d)

/-- A number in lower-case hexadecimal, without leading zeros. -/
def hex (n : Nat) : List Char :=
  if n < 16 then [hexDigit n] else hex (n / 16) ++ [hexDigit (n % 16)]
termination_by n

/-- A character as it is written between two marks of the kind `mark`. -/
def escape (mark c : Char) : List Char :=
  if c = mark then ['\\', c]
  else match c with
  | '\\' => ['\\', '\\']
  | '\x00' => ['\\', '0']
  | '\t' => ['\\', 't']
  | '\n' => ['\\', 'n']
  | '\r' => ['\\', 'r']
  | c => if isInvisible c then ['\\', 'u', '\x7b'] ++ hex c.toNat ++ ['\x7d'] else [c]

/-- A text between double quotes. -/
def quote (s : List Char) : List Char :=
  '\x22' :: s.flatMap (escape '\x22') ++ ['\x22']

/-- A character between single quotes. -/
def quoteChar (c : Char) : List Char :=
  '\x27' :: escape '\x27' c ++ ['\x27']

/-- `quote` on strings. -/
def quoted (s : String) : String := String.ofList (quote s.toList)

end Reckon.Text
