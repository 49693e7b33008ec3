import AppBundler.Text.Composite
import AppBundler.Text.Printable
/-!
# Replacements in domain names

Names that differ only in case, in width or in the form of their letters are one name. Each character is
replaced by the plain one that it is a form of, and characters that do not show are dropped. Composite
characters are not in these tables; they are joined afterwards.
-/

namespace AppBundler

namespace DomainMapping

/-- Runs in which capital and small letters alternate: the first and the last capital letter. -/
def alternating : Array (Nat × Nat) := #[
  (0x100, 0x12E), (0x139, 0x13D), (0x141, 0x147), (0x14A, 0x176), (0x179, 0x17D), (0x1A0, 0x1A4),
  (0x1CD, 0x1DB), (0x1DE, 0x1EE), (0x1F8, 0x21E), (0x222, 0x232), (0x246, 0x24E), (0x3D8, 0x3EE),
  (0x460, 0x480), (0x48A, 0x4BE), (0x4C1, 0x4CD), (0x4D0, 0x52E), (0x1E00, 0x1E94), (0x1EA0, 0x1EFE),
  (0x2C67, 0x2C6B), (0x2C80, 0x2CE2), (0xA640, 0xA66C), (0xA680, 0xA69A), (0xA722, 0xA72E),
  (0xA732, 0xA76E), (0xA77E, 0xA786), (0xA796, 0xA7A8), (0xA7B4, 0xA7C2), (0xA7CC, 0xA7DA)]

/-- Runs that are replaced by runs of the same length: the first and the last code point, and the first one of
the replacements. -/
def shifted : Array (Nat × Nat × Nat) := #[
  (0xC0, 0xD6, 0xE0), (0x391, 0x3A1, 0x3B1), (0x3A3, 0x3AB, 0x3C3), (0x400, 0x40F, 0x450),
  (0x410, 0x42F, 0x430), (0x531, 0x556, 0x561), (0x10A0, 0x10C5, 0x2D00), (0x1C90, 0x1CBA, 0x10D0),
  (0x1D33, 0x1D3A, 0x67), (0x1F08, 0x1F0F, 0x1F00), (0x1F28, 0x1F2F, 0x1F20), (0x1F38, 0x1F3F, 0x1F30),
  (0x1F68, 0x1F6F, 0x1F60), (0x2080, 0x2089, 0x30), (0x2460, 0x2468, 0x31), (0x24B6, 0x24CF, 0x61),
  (0x24D0, 0x24E9, 0x61), (0x2C00, 0x2C2F, 0x2C30), (0x3145, 0x314E, 0x1109), (0x314F, 0x3163, 0x1161),
  (0xAB70, 0xABBF, 0x13A0), (0xFF01, 0xFF20, 0x21), (0xFF21, 0xFF3A, 0x61), (0xFF3B, 0xFF5E, 0x5B),
  (0xFFB5, 0xFFBE, 0x1109), (0x10400, 0x10427, 0x10428), (0x104B0, 0x104D3, 0x104D8),
  (0x10570, 0x1057A, 0x10597), (0x1057C, 0x1058A, 0x105A3), (0x10C80, 0x10CB2, 0x10CC0),
  (0x10D50, 0x10D65, 0x10D70), (0x118A0, 0x118BF, 0x118C0), (0x16E40, 0x16E5F, 0x16E60),
  (0x16EA0, 0x16EB8, 0x16EBB), (0x1CCD6, 0x1CCEF, 0x61), (0x1CCF0, 0x1CCF9, 0x30), (0x1D400, 0x1D419, 0x61),
  (0x1D41A, 0x1D433, 0x61), (0x1D434, 0x1D44D, 0x61), (0x1D456, 0x1D467, 0x69), (0x1D468, 0x1D481, 0x61),
  (0x1D482, 0x1D49B, 0x61), (0x1D4AE, 0x1D4B5, 0x73), (0x1D4C5, 0x1D4CF, 0x70), (0x1D4D0, 0x1D4E9, 0x61),
  (0x1D4EA, 0x1D503, 0x61), (0x1D50D, 0x1D514, 0x6A), (0x1D51E, 0x1D537, 0x61), (0x1D552, 0x1D56B, 0x61),
  (0x1D56C, 0x1D585, 0x61), (0x1D586, 0x1D59F, 0x61), (0x1D5A0, 0x1D5B9, 0x61), (0x1D5BA, 0x1D5D3, 0x61),
  (0x1D5D4, 0x1D5ED, 0x61), (0x1D5EE, 0x1D607, 0x61), (0x1D608, 0x1D621, 0x61), (0x1D622, 0x1D63B, 0x61),
  (0x1D63C, 0x1D655, 0x61), (0x1D656, 0x1D66F, 0x61), (0x1D670, 0x1D689, 0x61), (0x1D68A, 0x1D6A3, 0x61),
  (0x1D6A8, 0x1D6B8, 0x3B1), (0x1D6C2, 0x1D6D2, 0x3B1), (0x1D6E2, 0x1D6F2, 0x3B1),
  (0x1D6FC, 0x1D70C, 0x3B1), (0x1D71C, 0x1D72C, 0x3B1), (0x1D736, 0x1D746, 0x3B1),
  (0x1D756, 0x1D766, 0x3B1), (0x1D770, 0x1D780, 0x3B1), (0x1D790, 0x1D7A0, 0x3B1),
  (0x1D7AA, 0x1D7BA, 0x3B1), (0x1D7CE, 0x1D7D7, 0x30), (0x1D7D8, 0x1D7E1, 0x30), (0x1D7E2, 0x1D7EB, 0x30),
  (0x1D7EC, 0x1D7F5, 0x30), (0x1D7F6, 0x1D7FF, 0x30), (0x1E030, 0x1E038, 0x430), (0x1E03C, 0x1E046, 0x43E),
  (0x1E051, 0x1E059, 0x430), (0x1E900, 0x1E921, 0x1E922), (0x1F130, 0x1F149, 0x61),
  (0x1FBF0, 0x1FBF9, 0x30)]

/-- Runs of characters each of which is replaced by one character: the first code point and the replacements. -/
def listed : Array (Nat × String) := #[
  (0xA0, " "), (0xAA, "a"), (0xB2, "23"), (0xB5, "μ"), (0xB9, "1o"), (0xD8, "øùúûüýþ"), (0x134, "ĵ"),
  (0x136, "ķ"), (0x178, "ÿ"), (0x17F, "s"), (0x181, "ɓƃ"), (0x184, "ƅ"), (0x186, "ɔƈ"), (0x189, "ɖɗƌ"),
  (0x18E, "ǝəɛƒ"), (0x193, "ɠɣ"), (0x196, "ɩɨƙ"), (0x19C, "ɯɲ"), (0x19F, "ɵ"), (0x1A6, "ʀƨ"), (0x1A9, "ʃ"),
  (0x1AC, "ƭ"), (0x1AE, "ʈư"), (0x1B1, "ʊʋƴ"), (0x1B5, "ƶ"), (0x1B7, "ʒƹ"), (0x1BC, "ƽ"), (0x1F4, "ǵ"),
  (0x1F6, "ƕƿ"), (0x220, "ƞ"), (0x23A, "ⱥȼ"), (0x23D, "ƚⱦ"), (0x241, "ɂ"), (0x243, "ƀʉʌ"),
  (0x2B0, "hɦjrɹɻʁwy"), (0x2E0, "ɣlsxʕ"), (0x345, "ι"), (0x370, "ͱ"), (0x372, "ͳ"), (0x376, "ͷ"),
  (0x37F, "ϳ"), (0x386, "ά"), (0x388, "έήί"), (0x38C, "ό"), (0x38E, "ύώ"), (0x3CF, "ϗβθυύϋφπ"),
  (0x3F0, "κρσ"), (0x3F4, "θε"), (0x3F7, "ϸ"), (0x3F9, "σϻ"), (0x3FD, "ͻͼͽ"), (0x4C0, "ӏ"), (0xF0C, "་"),
  (0x10C7, "ⴧ"), (0x10CD, "ⴭ"), (0x10FC, "ნ"), (0x13F8, "ᏰᏱᏲᏳᏴᏵ"), (0x1C80, "вдосттъѣꙋᲊ"), (0x1CBD, "ჽჾჿ"),
  (0x1D2C, "aæb"), (0x1D30, "deǝ"), (0x1D3C, "oȣprtuwaɐɑᴂbdeəɛɜg"),
  (0x1D4F, "kmŋoɔᴖᴗptuᴝɯvᴥβγδφχiruvβγρφχ"), (0x1D78, "н"),
  (0x1D9B, "ɒcɕðɜfɟɡɥɨɩɪᵻʝɭᶅʟɱɰɲɳɴɵɸʂʃƫʉʊᴜʋʌzʐʑʒθ"), (0x1E9B, "ṡ"), (0x1E9E, "ß"), (0x1F18, "ἐἑἒἓἔἕ"),
  (0x1F48, "ὀὁὂὃὄὅ"), (0x1F59, "ὑ"), (0x1F5B, "ὓ"), (0x1F5D, "ὕ"), (0x1F5F, "ὗ"), (0x1FB8, "ᾰᾱὰά"),
  (0x1FC8, "ὲέὴή"), (0x1FD8, "ῐῑὶί"), (0x1FE8, "ῠῡὺύῥ"), (0x1FF8, "ὸόὼώ"), (0x2000, "           "),
  (0x2011, "‐"), (0x202F, " "), (0x205F, " "), (0x2070, "0i"), (0x2074, "456789+−=()n"), (0x208A, "+−=()"),
  (0x2090, "aeoxəhklmnpst"), (0x2102, "c"), (0x2107, "ɛ"), (0x210A, "ghhhhħiill"), (0x2115, "n"),
  (0x2119, "pqrrr"), (0x2124, "z"), (0x2126, "ω"), (0x2128, "z"), (0x212A, "kåbc"),
  (0x212F, "eefⅎmo\u05D0\u05D1\u05D2\u05D3i"), (0x213C, "πγγπ∑"), (0x2145, "ddeij"), (0x2160, "i"),
  (0x2164, "v"), (0x2169, "x"), (0x216C, "lcdmi"), (0x2174, "v"), (0x2179, "x"), (0x217C, "lcdm"),
  (0x2183, "ↄ"), (0x24EA, "0"), (0x2C60, "ⱡ"), (0x2C62, "ɫᵽɽ"), (0x2C6D, "ɑɱɐɒ"), (0x2C72, "ⱳ"),
  (0x2C75, "ⱶ"), (0x2C7C, "jvȿɀ"), (0x2CEB, "ⳬ"), (0x2CED, "ⳮ"), (0x2CF2, "ⳳ"), (0x2D6F, "ⵡ"),
  (0x2E9F, "母"), (0x2EF3, "龟"),
  (0x2F00, "一丨丶丿乙亅二亠人儿入八冂冖冫几凵刀力勹匕匚匸十卜卩厂厶又口囗土士夂夊夕大女子宀寸小尢尸"),
  (0x2F2C, "屮山巛工己巾干幺广廴廾弋弓彐彡彳心戈戶手支攴文斗斤方无日曰月木欠止歹殳毋比毛氏气水火爪父"),
  (0x2F58, "爻爿片牙牛犬玄玉瓜瓦甘生用田疋疒癶白皮皿目矛矢石示禸禾穴立竹米糸缶网羊羽老而耒耳聿肉臣自"),
  (0x2F84, "至臼舌舛舟艮色艸虍虫血行衣襾見角言谷豆豕豸貝赤走足身車辛辰辵邑酉釆里金長門阜隶隹雨靑非面"),
  (0x2FB0, "革韋韭音頁風飛食首香馬骨高髟鬥鬯鬲鬼魚鳥鹵鹿麥麻黃黍黑黹黽鼎鼓鼠鼻齊齒龍龜龠"), (0x3000, " "),
  (0x3002, "."), (0x3036, "〒"), (0x3038, "十卄卅"), (0x3131, "ᄀᄁᆪᄂᆬᆭᄃᄄᄅᆰᆱᆲᆳᆴᆵᄚᄆᄇᄈᄡ"),
  (0x3165, "ᄔᄕᇇᇈᇌᇎᇓᇗᇙᄜᇝᇟᄝᄞᄠᄢᄣᄧᄩᄫᄬᄭᄮᄯᄲᄶᅀᅇᅌᇱᇲᅗᅘᅙᆄᆅᆈᆑᆒᆔᆞᆡ"),
  (0x3192, "一二三四上中下甲乙丙丁天地人"), (0x3244, "問幼文箏"),
  (0x3260, "ᄀᄂᄃᄅᄆᄇᄉᄋᄌᄎᄏᄐᄑᄒ가나다라마바사아자차카타파하"), (0x327E, "우"),
  (0x3280, "一二三四五六七八九十月火水木金土日株有社名特財祝労秘男女適優印注項休写正上中下左右医宗学"),
  (0x32AC, "監企資協夜"),
  (0x32D0, "アイウエオカキクケコサシスセソタチツテトナニヌネノハヒフヘホマミムメモヤユヨラリルレロワ"),
  (0x32FC, "ヰヱヲ"), (0xA69C, "ъь"), (0xA770, "ꝯ"), (0xA779, "ꝺ"), (0xA77B, "ꝼ"), (0xA77D, "ᵹ"),
  (0xA78B, "ꞌ"), (0xA78D, "ɥ"), (0xA790, "ꞑ"), (0xA792, "ꞓ"), (0xA7AA, "ɦɜɡɬɪ"), (0xA7B0, "ʞʇʝꭓ"),
  (0xA7C4, "ꞔʂᶎꟈ"), (0xA7C9, "ꟊ"), (0xA7CB, "ɤ"), (0xA7DC, "ƛ"), (0xA7F1, "scfqꟶ"), (0xA7F8, "ħœ"),
  (0xAB5C, "ꜧꬷɫꭒ"), (0xAB69, "ʍ"), (0xFB20, "\u05E2\u05D0\u05D3\u05D4\u05DB\u05DC\u05DD\u05E8\u05EA+"),
  (0xFB50, "\u0671\u0671\u067B\u067B\u067B\u067B\u067E\u067E\u067E\u067E\u0680\u0680\u0680\u0680"),
  (0xFB5E, "\u067A\u067A\u067A\u067A\u067F\u067F\u067F\u067F\u0679\u0679\u0679\u0679\u06A4\u06A4"),
  (0xFB6C, "\u06A4\u06A4\u06A6\u06A6\u06A6\u06A6\u0684\u0684\u0684\u0684\u0683\u0683\u0683\u0683"),
  (0xFB7A, "\u0686\u0686\u0686\u0686\u0687\u0687\u0687\u0687\u068D\u068D\u068C\u068C\u068E\u068E"),
  (0xFB88, "\u0688\u0688\u0698\u0698\u0691\u0691\u06A9\u06A9\u06A9\u06A9\u06AF\u06AF\u06AF\u06AF"),
  (0xFB96, "\u06B3\u06B3\u06B3\u06B3\u06B1\u06B1\u06B1\u06B1\u06BA\u06BA\u06BB\u06BB\u06BB\u06BB"),
  (0xFBA4, "\u06C0\u06C0\u06C1\u06C1\u06C1\u06C1\u06BE\u06BE\u06BE\u06BE\u06D2\u06D2\u06D3\u06D3"),
  (0xFBD3, "\u06AD\u06AD\u06AD\u06AD\u06C7\u06C7\u06C6\u06C6\u06C8\u06C8"),
  (0xFBDE, "\u06CB\u06CB\u06C5\u06C5\u06C9\u06C9\u06D0\u06D0\u06D0\u06D0\u0649\u0649"),
  (0xFBFC, "\u06CC\u06CC\u06CC\u06CC"), (0xFE10, ",、"), (0xFE13, ":;!?〖〗"),
  (0xFE31, "—–__()\x7b\x7d〔〕【】《》〈〉「」『』"), (0xFE47, "[]"), (0xFE4D, "___,、"),
  (0xFE54, ";:?!—()\x7b\x7d〔〕#&*+-<>="), (0xFE68, "\\$%@"),
  (0xFE80, "\u0621\u0622\u0622\u0623\u0623\u0624\u0624\u0625\u0625\u0626\u0626\u0626\u0626\u0627"),
  (0xFE8E, "\u0627\u0628\u0628\u0628\u0628\u0629\u0629\u062A\u062A\u062A\u062A\u062B\u062B\u062B"),
  (0xFE9C, "\u062B\u062C\u062C\u062C\u062C\u062D\u062D\u062D\u062D\u062E\u062E\u062E\u062E\u062F"),
  (0xFEAA, "\u062F\u0630\u0630\u0631\u0631\u0632\u0632\u0633\u0633\u0633\u0633\u0634\u0634\u0634"),
  (0xFEB8, "\u0634\u0635\u0635\u0635\u0635\u0636\u0636\u0636\u0636\u0637\u0637\u0637\u0637\u0638"),
  (0xFEC6, "\u0638\u0638\u0638\u0639\u0639\u0639\u0639\u063A\u063A\u063A\u063A\u0641\u0641\u0641"),
  (0xFED4, "\u0641\u0642\u0642\u0642\u0642\u0643\u0643\u0643\u0643\u0644\u0644\u0644\u0644\u0645"),
  (0xFEE2, "\u0645\u0645\u0645\u0646\u0646\u0646\u0646\u0647\u0647\u0647\u0647\u0648\u0648\u0649"),
  (0xFEF0, "\u0649\u064A\u064A\u064A\u064A"),
  (0xFF5F, "⦅⦆.「」、・ヲァィゥェォャュョッーアイウエオカキクケコサシスセソタチツテトナニヌネノハヒ"),
  (0xFF8C, "フヘホマミムメモヤユヨラリルレロワン\u3099\u309A"), (0xFFA1, "ᄀᄁᆪᄂᆬᆭᄃᄄᄅᆰᆱᆲᆳᆴᆵᄚᄆᄇᄈᄡ"),
  (0xFFC2, "ᅡᅢᅣᅤᅥᅦ"), (0xFFCA, "ᅧᅨᅩᅪᅫᅬ"), (0xFFD2, "ᅭᅮᅯᅰᅱᅲ"), (0xFFDA, "ᅳᅴᅵ"), (0xFFE0, "¢£¬"),
  (0xFFE4, "¦¥₩"), (0xFFE8, "│←↑→↓■○"), (0x1058C, "𐖳𐖴𐖵𐖶𐖷𐖸𐖹"), (0x10594, "𐖻𐖼"), (0x10781, "ːˑæʙɓ"),
  (0x10787, "ʣꭦʥʤɖɗᶑɘɞʩɤɢɠʛħʜɧʄʪʫɬ𝼄ꞎɮ𝼅ʎ𝼆øɶɷqɺ𝼈ɽɾʀʨʦꭧʧʈⱱ"), (0x107B2, "ʏʡʢʘǀǁǂ𝼊𝼞"), (0x1D44E, "abcdefg"),
  (0x1D49C, "a"), (0x1D49E, "cd"), (0x1D4A2, "g"), (0x1D4A5, "jk"), (0x1D4A9, "nopq"), (0x1D4B6, "abcd"),
  (0x1D4BB, "f"), (0x1D4BD, "hijklmn"), (0x1D504, "ab"), (0x1D507, "defg"), (0x1D516, "stuvwxy"),
  (0x1D538, "ab"), (0x1D53B, "defg"), (0x1D540, "ijklm"), (0x1D546, "o"), (0x1D54A, "stuvwxy"),
  (0x1D6A4, "ıȷ"), (0x1D6B9, "θστυφχψω∇"), (0x1D6D3, "σστυφχψω∂εθκφρπ"), (0x1D6F3, "θστυφχψω∇"),
  (0x1D70D, "σστυφχψω∂εθκφρπ"), (0x1D72D, "θστυφχψω∇"), (0x1D747, "σστυφχψω∂εθκφρπ"),
  (0x1D767, "θστυφχψω∇"), (0x1D781, "σστυφχψω∂εθκφρπ"), (0x1D7A1, "θστυφχψω∇"),
  (0x1D7BB, "σστυφχψω∂εθκφρπϝϝ"), (0x1E039, "клм"), (0x1E047, "ыэюꚉәіјөүӏ"),
  (0x1E05A, "клопсуфхцчшъыґіѕџҫꙑұ"), (0x1EE00, "\u0627\u0628\u062C\u062F"),
  (0x1EE05, "\u0648\u0632\u062D\u0637\u064A\u0643\u0644\u0645\u0646\u0633\u0639\u0641\u0635\u0642"),
  (0x1EE13, "\u0631\u0634\u062A\u062B\u062E\u0630\u0636\u0638\u063A\u066E\u06BA\u06A1\u066F"),
  (0x1EE21, "\u0628\u062C"), (0x1EE24, "\u0647"), (0x1EE27, "\u062D"),
  (0x1EE29, "\u064A\u0643\u0644\u0645\u0646\u0633\u0639\u0641\u0635\u0642"),
  (0x1EE34, "\u0634\u062A\u062B\u062E"), (0x1EE39, "\u0636"), (0x1EE3B, "\u063A"), (0x1EE42, "\u062C"),
  (0x1EE47, "\u062D"), (0x1EE49, "\u064A"), (0x1EE4B, "\u0644"), (0x1EE4D, "\u0646\u0633\u0639"),
  (0x1EE51, "\u0635\u0642"), (0x1EE54, "\u0634"), (0x1EE57, "\u062E"), (0x1EE59, "\u0636"),
  (0x1EE5B, "\u063A"), (0x1EE5D, "\u06BA"), (0x1EE5F, "\u066F"), (0x1EE61, "\u0628\u062C"),
  (0x1EE64, "\u0647"), (0x1EE67, "\u062D\u0637\u064A\u0643"),
  (0x1EE6C, "\u0645\u0646\u0633\u0639\u0641\u0635\u0642"), (0x1EE74, "\u0634\u062A\u062B\u062E"),
  (0x1EE79, "\u0636\u0638\u063A\u066E"), (0x1EE7E, "\u06A1"),
  (0x1EE80, "\u0627\u0628\u062C\u062F\u0647\u0648\u0632\u062D\u0637\u064A"),
  (0x1EE8B, "\u0644\u0645\u0646\u0633\u0639\u0641\u0635\u0642\u0631\u0634\u062A\u062B\u062E\u0630"),
  (0x1EE99, "\u0636\u0638\u063A"), (0x1EEA1, "\u0628\u062C\u062F"),
  (0x1EEA5, "\u0648\u0632\u062D\u0637\u064A"),
  (0x1EEAB, "\u0644\u0645\u0646\u0633\u0639\u0641\u0635\u0642\u0631\u0634\u062A\u062B\u062E\u0630"),
  (0x1EEB9, "\u0636\u0638\u063A"), (0x1F12B, "cr"), (0x1F202, "サ"),
  (0x1F210, "手字双デ二多解天交映無料前後再新初終生販声吹演投捕一三遊左中右指走打禁空合満有月申割営配"),
  (0x1F250, "得可")]

/-- Runs of characters each of which is replaced by several characters. -/
def expanded : Array (Nat × List String) := #[
  (0xA8, [" \u0308"]), (0xAF, [" \u0304"]), (0xB4, [" \u0301"]), (0xB8, [" \u0327"]),
  (0xBC, ["1⁄4", "1⁄2", "3⁄4"]), (0x130, ["i\u0307"]), (0x132, ["ij", "ij"]), (0x13F, ["l·", "l·"]),
  (0x149, ["ʼn"]), (0x1C4, ["dž", "dž", "dž", "lj", "lj", "lj", "nj", "nj", "nj"]),
  (0x1F1, ["dz", "dz", "dz"]), (0x2D8, [" \u0306", " \u0307", " \u030A", " \u0328", " \u0303", " \u030B"]),
  (0x37A, [" ι"]), (0x384, [" \u0301", " \u0308\u0301"]), (0x587, ["եւ"]),
  (0x675, ["\u0627\u0674", "\u0648\u0674", "\u06C7\u0674", "\u064A\u0674"]), (0xE33, ["\u0E4Dา"]),
  (0xEB3, ["\u0ECDາ"]), (0xEDC, ["ຫນ", "ຫມ"]), (0xF77, ["\u0FB2\u0F71\u0F80"]),
  (0xF79, ["\u0FB3\u0F71\u0F80"]), (0x1E9A, ["aʾ"]),
  (0x1F80, ["ἀι", "ἁι", "ἂι", "ἃι", "ἄι", "ἅι", "ἆι", "ἇι", "ἀι", "ἁι", "ἂι", "ἃι", "ἄι", "ἅι"]),
  (0x1F8E, ["ἆι", "ἇι", "ἠι", "ἡι", "ἢι", "ἣι", "ἤι", "ἥι", "ἦι", "ἧι", "ἠι", "ἡι", "ἢι", "ἣι"]),
  (0x1F9C, ["ἤι", "ἥι", "ἦι", "ἧι", "ὠι", "ὡι", "ὢι", "ὣι", "ὤι", "ὥι", "ὦι", "ὧι", "ὠι", "ὡι"]),
  (0x1FAA, ["ὢι", "ὣι", "ὤι", "ὥι", "ὦι", "ὧι"]), (0x1FB2, ["ὰι", "αι", "άι"]), (0x1FB7, ["ᾶι"]),
  (0x1FBC, ["αι", " \u0313"]), (0x1FBF, [" \u0313", " \u0342", " \u0308\u0342", "ὴι", "ηι", "ήι"]),
  (0x1FC7, ["ῆι"]), (0x1FCC, ["ηι", " \u0313\u0300", " \u0313\u0301", " \u0313\u0342"]),
  (0x1FDD, [" \u0314\u0300", " \u0314\u0301", " \u0314\u0342"]),
  (0x1FED, [" \u0308\u0300", " \u0308\u0301"]), (0x1FF2, ["ὼι", "ωι", "ώι"]), (0x1FF7, ["ῶι"]),
  (0x1FFC, ["ωι", " \u0301", " \u0314"]), (0x2017, [" \u0333"]), (0x2033, ["′′", "′′′"]),
  (0x2036, ["‵‵", "‵‵‵"]), (0x203C, ["!!"]), (0x203E, [" \u0305"]), (0x2047, ["??", "?!", "!?"]),
  (0x2057, ["′′′′"]), (0x20A8, ["rs"]), (0x2100, ["a/c", "a/s"]), (0x2103, ["°c"]),
  (0x2105, ["c/o", "c/u"]), (0x2109, ["°f"]), (0x2116, ["no"]), (0x2120, ["sm", "tel", "tm"]),
  (0x213B, ["fax"]),
  (0x2150, ["1⁄7", "1⁄9", "1⁄10", "1⁄3", "2⁄3", "1⁄5", "2⁄5", "3⁄5", "4⁄5", "1⁄6", "5⁄6", "1⁄8"]),
  (0x215C, ["3⁄8", "5⁄8", "7⁄8", "1⁄"]), (0x2161, ["ii", "iii", "iv"]),
  (0x2165, ["vi", "vii", "viii", "ix"]), (0x216A, ["xi", "xii"]), (0x2171, ["ii", "iii", "iv"]),
  (0x2175, ["vi", "vii", "viii", "ix"]), (0x217A, ["xi", "xii"]), (0x2189, ["0⁄3"]),
  (0x222C, ["∫∫", "∫∫∫"]), (0x222F, ["∮∮", "∮∮∮"]),
  (0x2469, ["10", "11", "12", "13", "14", "15", "16", "17", "18", "19", "20", "(1)", "(2)", "(3)"]),
  (0x2477, ["(4)", "(5)", "(6)", "(7)", "(8)", "(9)", "(10)", "(11)", "(12)", "(13)", "(14)"]),
  (0x2482, ["(15)", "(16)", "(17)", "(18)", "(19)", "(20)"]),
  (0x249C, ["(a)", "(b)", "(c)", "(d)", "(e)", "(f)", "(g)", "(h)", "(i)", "(j)", "(k)", "(l)"]),
  (0x24A8, ["(m)", "(n)", "(o)", "(p)", "(q)", "(r)", "(s)", "(t)", "(u)", "(v)", "(w)", "(x)"]),
  (0x24B4, ["(y)", "(z)"]), (0x2A0C, ["∫∫∫∫"]), (0x2A74, ["::=", "==", "==="]),
  (0x309B, [" \u3099", " \u309A"]), (0x309F, ["より"]), (0x30FF, ["コト"]),
  (0x3200, ["(ᄀ)", "(ᄂ)", "(ᄃ)", "(ᄅ)", "(ᄆ)", "(ᄇ)", "(ᄉ)", "(ᄋ)", "(ᄌ)", "(ᄎ)", "(ᄏ)"]),
  (0x320B, ["(ᄐ)", "(ᄑ)", "(ᄒ)", "(가)", "(나)", "(다)", "(라)", "(마)", "(바)", "(사)", "(아)"]),
  (0x3216, ["(자)", "(차)", "(카)", "(타)", "(파)", "(하)", "(주)", "(오전)", "(오후)"]),
  (0x3220, ["(一)", "(二)", "(三)", "(四)", "(五)", "(六)", "(七)", "(八)", "(九)", "(十)", "(月)"]),
  (0x322B, ["(火)", "(水)", "(木)", "(金)", "(土)", "(日)", "(株)", "(有)", "(社)", "(名)", "(特)"]),
  (0x3236, ["(財)", "(祝)", "(労)", "(代)", "(呼)", "(学)", "(監)", "(企)", "(資)", "(協)", "(祭)"]),
  (0x3241, ["(休)", "(自)", "(至)"]),
  (0x3250, ["pte", "21", "22", "23", "24", "25", "26", "27", "28", "29", "30", "31", "32", "33"]),
  (0x325E, ["34", "35"]), (0x327C, ["참고", "주의"]),
  (0x32B1, ["36", "37", "38", "39", "40", "41", "42", "43", "44", "45", "46", "47", "48", "49"]),
  (0x32BF, ["50", "1月", "2月", "3月", "4月", "5月", "6月", "7月", "8月", "9月", "10月", "11月"]),
  (0x32CB, ["12月", "hg", "erg", "ev", "ltd"]),
  (0x32FF, ["令和", "アパート", "アルファ", "アンペア", "アール", "イニング", "インチ", "ウォン"]),
  (0x3307, ["エスクード", "エーカー", "オンス", "オーム", "カイリ", "カラット", "カロリー"]),
  (0x330E, ["ガロン", "ガンマ", "ギガ", "ギニー", "キュリー", "ギルダー", "キロ", "キログラム"]),
  (0x3316, ["キロメートル", "キロワット", "グラム", "グラムトン", "クルゼイロ", "クローネ"]),
  (0x331C, ["ケース", "コルナ", "コーポ", "サイクル", "サンチーム", "シリング", "センチ", "セント"]),
  (0x3324, ["ダース", "デシ", "ドル", "トン", "ナノ", "ノット", "ハイツ", "パーセント", "パーツ"]),
  (0x332D, ["バーレル", "ピアストル", "ピクル", "ピコ", "ビル", "ファラッド", "フィート"]),
  (0x3334, ["ブッシェル", "フラン", "ヘクタール", "ペソ", "ペニヒ", "ヘルツ", "ペンス", "ページ"]),
  (0x333C, ["ベータ", "ポイント", "ボルト", "ホン", "ポンド", "ホール", "ホーン", "マイクロ"]),
  (0x3344, ["マイル", "マッハ", "マルク", "マンション", "ミクロン", "ミリ", "ミリバール", "メガ"]),
  (0x334C, ["メガトン", "メートル", "ヤード", "ヤール", "ユアン", "リットル", "リラ", "ルピー"]),
  (0x3354, ["ルーブル", "レム", "レントゲン", "ワット", "0点", "1点", "2点", "3点", "4点", "5点"]),
  (0x335E, ["6点", "7点", "8点", "9点", "10点", "11点", "12点", "13点", "14点", "15点", "16点"]),
  (0x3369, ["17点", "18点", "19点", "20点", "21点", "22点", "23点", "24点", "hpa", "da", "au"]),
  (0x3374, ["bar", "ov", "pc", "dm", "dm2", "dm3", "iu", "平成", "昭和", "大正", "明治"]),
  (0x337F, ["株式会社", "pa", "na", "μa", "ma", "ka", "kb", "mb", "gb", "cal", "kcal", "pf", "nf"]),
  (0x338C, ["μf", "μg", "mg", "kg", "hz", "khz", "mhz", "ghz", "thz", "μl", "ml", "dl", "kl", "fm"]),
  (0x339A, ["nm", "μm", "mm", "cm", "km", "mm2", "cm2", "m2", "km2", "mm3", "cm3", "m3", "km3"]),
  (0x33A7, ["m∕s", "m∕s2", "pa", "kpa", "mpa", "gpa", "rad", "rad∕s", "rad∕s2", "ps", "ns", "μs"]),
  (0x33B3, ["ms", "pv", "nv", "μv", "mv", "kv", "mv", "pw", "nw", "μw", "mw", "kw", "mw", "kω"]),
  (0x33C1, ["mω"]), (0x33C3, ["bq", "cc", "cd", "c∕kg"]),
  (0x33C8, ["db", "gy", "ha", "hp", "in", "kk", "km", "kt", "lm", "ln", "log", "lx", "mb", "mil"]),
  (0x33D6, ["mol", "ph"]),
  (0x33D9, ["ppm", "pr", "sr", "sv", "wb", "v∕m", "a∕m", "1日", "2日", "3日", "4日", "5日", "6日"]),
  (0x33E6, ["7日", "8日", "9日", "10日", "11日", "12日", "13日", "14日", "15日", "16日", "17日"]),
  (0x33F1, ["18日", "19日", "20日", "21日", "22日", "23日", "24日", "25日", "26日", "27日", "28日"]),
  (0x33FC, ["29日", "30日", "31日", "gal"]), (0xFB00, ["ff", "fi", "fl", "ffi", "ffl", "st", "st"]),
  (0xFB13, ["մն", "մե", "մի", "վն", "մխ"]), (0xFB4F, ["\u05D0\u05DC"]), (0xFBDD, ["\u06C7\u0674"]),
  (0xFBEA, ["\u0626\u0627", "\u0626\u0627", "\u0626\u06D5", "\u0626\u06D5", "\u0626\u0648"]),
  (0xFBEF, ["\u0626\u0648", "\u0626\u06C7", "\u0626\u06C7", "\u0626\u06C6", "\u0626\u06C6"]),
  (0xFBF4, ["\u0626\u06C8", "\u0626\u06C8", "\u0626\u06D0", "\u0626\u06D0", "\u0626\u06D0"]),
  (0xFBF9, ["\u0626\u0649", "\u0626\u0649", "\u0626\u0649"]),
  (0xFC00, ["\u0626\u062C", "\u0626\u062D", "\u0626\u0645", "\u0626\u0649", "\u0626\u064A"]),
  (0xFC05, ["\u0628\u062C", "\u0628\u062D", "\u0628\u062E", "\u0628\u0645", "\u0628\u0649"]),
  (0xFC0A, ["\u0628\u064A", "\u062A\u062C", "\u062A\u062D", "\u062A\u062E", "\u062A\u0645"]),
  (0xFC0F, ["\u062A\u0649", "\u062A\u064A", "\u062B\u062C", "\u062B\u0645", "\u062B\u0649"]),
  (0xFC14, ["\u062B\u064A", "\u062C\u062D", "\u062C\u0645", "\u062D\u062C", "\u062D\u0645"]),
  (0xFC19, ["\u062E\u062C", "\u062E\u062D", "\u062E\u0645", "\u0633\u062C", "\u0633\u062D"]),
  (0xFC1E, ["\u0633\u062E", "\u0633\u0645", "\u0635\u062D", "\u0635\u0645", "\u0636\u062C"]),
  (0xFC23, ["\u0636\u062D", "\u0636\u062E", "\u0636\u0645", "\u0637\u062D", "\u0637\u0645"]),
  (0xFC28, ["\u0638\u0645", "\u0639\u062C", "\u0639\u0645", "\u063A\u062C", "\u063A\u0645"]),
  (0xFC2D, ["\u0641\u062C", "\u0641\u062D", "\u0641\u062E", "\u0641\u0645", "\u0641\u0649"]),
  (0xFC32, ["\u0641\u064A", "\u0642\u062D", "\u0642\u0645", "\u0642\u0649", "\u0642\u064A"]),
  (0xFC37, ["\u0643\u0627", "\u0643\u062C", "\u0643\u062D", "\u0643\u062E", "\u0643\u0644"]),
  (0xFC3C, ["\u0643\u0645", "\u0643\u0649", "\u0643\u064A", "\u0644\u062C", "\u0644\u062D"]),
  (0xFC41, ["\u0644\u062E", "\u0644\u0645", "\u0644\u0649", "\u0644\u064A", "\u0645\u062C"]),
  (0xFC46, ["\u0645\u062D", "\u0645\u062E", "\u0645\u0645", "\u0645\u0649", "\u0645\u064A"]),
  (0xFC4B, ["\u0646\u062C", "\u0646\u062D", "\u0646\u062E", "\u0646\u0645", "\u0646\u0649"]),
  (0xFC50, ["\u0646\u064A", "\u0647\u062C", "\u0647\u0645", "\u0647\u0649", "\u0647\u064A"]),
  (0xFC55, ["\u064A\u062C", "\u064A\u062D", "\u064A\u062E", "\u064A\u0645", "\u064A\u0649"]),
  (0xFC5A, ["\u064A\u064A", "\u0630\u0670", "\u0631\u0670", "\u0649\u0670", " \u064C\u0651"]),
  (0xFC5F, [" \u064D\u0651", " \u064E\u0651", " \u064F\u0651", " \u0650\u0651", " \u0651\u0670"]),
  (0xFC64, ["\u0626\u0631", "\u0626\u0632", "\u0626\u0645", "\u0626\u0646", "\u0626\u0649"]),
  (0xFC69, ["\u0626\u064A", "\u0628\u0631", "\u0628\u0632", "\u0628\u0645", "\u0628\u0646"]),
  (0xFC6E, ["\u0628\u0649", "\u0628\u064A", "\u062A\u0631", "\u062A\u0632", "\u062A\u0645"]),
  (0xFC73, ["\u062A\u0646", "\u062A\u0649", "\u062A\u064A", "\u062B\u0631", "\u062B\u0632"]),
  (0xFC78, ["\u062B\u0645", "\u062B\u0646", "\u062B\u0649", "\u062B\u064A", "\u0641\u0649"]),
  (0xFC7D, ["\u0641\u064A", "\u0642\u0649", "\u0642\u064A", "\u0643\u0627", "\u0643\u0644"]),
  (0xFC82, ["\u0643\u0645", "\u0643\u0649", "\u0643\u064A", "\u0644\u0645", "\u0644\u0649"]),
  (0xFC87, ["\u0644\u064A", "\u0645\u0627", "\u0645\u0645", "\u0646\u0631", "\u0646\u0632"]),
  (0xFC8C, ["\u0646\u0645", "\u0646\u0646", "\u0646\u0649", "\u0646\u064A", "\u0649\u0670"]),
  (0xFC91, ["\u064A\u0631", "\u064A\u0632", "\u064A\u0645", "\u064A\u0646", "\u064A\u0649"]),
  (0xFC96, ["\u064A\u064A", "\u0626\u062C", "\u0626\u062D", "\u0626\u062E", "\u0626\u0645"]),
  (0xFC9B, ["\u0626\u0647", "\u0628\u062C", "\u0628\u062D", "\u0628\u062E", "\u0628\u0645"]),
  (0xFCA0, ["\u0628\u0647", "\u062A\u062C", "\u062A\u062D", "\u062A\u062E", "\u062A\u0645"]),
  (0xFCA5, ["\u062A\u0647", "\u062B\u0645", "\u062C\u062D", "\u062C\u0645", "\u062D\u062C"]),
  (0xFCAA, ["\u062D\u0645", "\u062E\u062C", "\u062E\u0645", "\u0633\u062C", "\u0633\u062D"]),
  (0xFCAF, ["\u0633\u062E", "\u0633\u0645", "\u0635\u062D", "\u0635\u062E", "\u0635\u0645"]),
  (0xFCB4, ["\u0636\u062C", "\u0636\u062D", "\u0636\u062E", "\u0636\u0645", "\u0637\u062D"]),
  (0xFCB9, ["\u0638\u0645", "\u0639\u062C", "\u0639\u0645", "\u063A\u062C", "\u063A\u0645"]),
  (0xFCBE, ["\u0641\u062C", "\u0641\u062D", "\u0641\u062E", "\u0641\u0645", "\u0642\u062D"]),
  (0xFCC3, ["\u0642\u0645", "\u0643\u062C", "\u0643\u062D", "\u0643\u062E", "\u0643\u0644"]),
  (0xFCC8, ["\u0643\u0645", "\u0644\u062C", "\u0644\u062D", "\u0644\u062E", "\u0644\u0645"]),
  (0xFCCD, ["\u0644\u0647", "\u0645\u062C", "\u0645\u062D", "\u0645\u062E", "\u0645\u0645"]),
  (0xFCD2, ["\u0646\u062C", "\u0646\u062D", "\u0646\u062E", "\u0646\u0645", "\u0646\u0647"]),
  (0xFCD7, ["\u0647\u062C", "\u0647\u0645", "\u0647\u0670", "\u064A\u062C", "\u064A\u062D"]),
  (0xFCDC, ["\u064A\u062E", "\u064A\u0645", "\u064A\u0647", "\u0626\u0645", "\u0626\u0647"]),
  (0xFCE1, ["\u0628\u0645", "\u0628\u0647", "\u062A\u0645", "\u062A\u0647", "\u062B\u0645"]),
  (0xFCE6, ["\u062B\u0647", "\u0633\u0645", "\u0633\u0647", "\u0634\u0645", "\u0634\u0647"]),
  (0xFCEB, ["\u0643\u0644", "\u0643\u0645", "\u0644\u0645", "\u0646\u0645", "\u0646\u0647"]),
  (0xFCF0, ["\u064A\u0645", "\u064A\u0647", "\u0640\u064E\u0651", "\u0640\u064F\u0651"]),
  (0xFCF4, ["\u0640\u0650\u0651", "\u0637\u0649", "\u0637\u064A", "\u0639\u0649", "\u0639\u064A"]),
  (0xFCF9, ["\u063A\u0649", "\u063A\u064A", "\u0633\u0649", "\u0633\u064A", "\u0634\u0649"]),
  (0xFCFE, ["\u0634\u064A", "\u062D\u0649", "\u062D\u064A", "\u062C\u0649", "\u062C\u064A"]),
  (0xFD03, ["\u062E\u0649", "\u062E\u064A", "\u0635\u0649", "\u0635\u064A", "\u0636\u0649"]),
  (0xFD08, ["\u0636\u064A", "\u0634\u062C", "\u0634\u062D", "\u0634\u062E", "\u0634\u0645"]),
  (0xFD0D, ["\u0634\u0631", "\u0633\u0631", "\u0635\u0631", "\u0636\u0631", "\u0637\u0649"]),
  (0xFD12, ["\u0637\u064A", "\u0639\u0649", "\u0639\u064A", "\u063A\u0649", "\u063A\u064A"]),
  (0xFD17, ["\u0633\u0649", "\u0633\u064A", "\u0634\u0649", "\u0634\u064A", "\u062D\u0649"]),
  (0xFD1C, ["\u062D\u064A", "\u062C\u0649", "\u062C\u064A", "\u062E\u0649", "\u062E\u064A"]),
  (0xFD21, ["\u0635\u0649", "\u0635\u064A", "\u0636\u0649", "\u0636\u064A", "\u0634\u062C"]),
  (0xFD26, ["\u0634\u062D", "\u0634\u062E", "\u0634\u0645", "\u0634\u0631", "\u0633\u0631"]),
  (0xFD2B, ["\u0635\u0631", "\u0636\u0631", "\u0634\u062C", "\u0634\u062D", "\u0634\u062E"]),
  (0xFD30, ["\u0634\u0645", "\u0633\u0647", "\u0634\u0647", "\u0637\u0645", "\u0633\u062C"]),
  (0xFD35, ["\u0633\u062D", "\u0633\u062E", "\u0634\u062C", "\u0634\u062D", "\u0634\u062E"]),
  (0xFD3A, ["\u0637\u0645", "\u0638\u0645", "\u0627\u064B", "\u0627\u064B"]),
  (0xFD50, ["\u062A\u062C\u0645", "\u062A\u062D\u062C", "\u062A\u062D\u062C", "\u062A\u062D\u0645"]),
  (0xFD54, ["\u062A\u062E\u0645", "\u062A\u0645\u062C", "\u062A\u0645\u062D", "\u062A\u0645\u062E"]),
  (0xFD58, ["\u062C\u0645\u062D", "\u062C\u0645\u062D", "\u062D\u0645\u064A", "\u062D\u0645\u0649"]),
  (0xFD5C, ["\u0633\u062D\u062C", "\u0633\u062C\u062D", "\u0633\u062C\u0649", "\u0633\u0645\u062D"]),
  (0xFD60, ["\u0633\u0645\u062D", "\u0633\u0645\u062C", "\u0633\u0645\u0645", "\u0633\u0645\u0645"]),
  (0xFD64, ["\u0635\u062D\u062D", "\u0635\u062D\u062D", "\u0635\u0645\u0645", "\u0634\u062D\u0645"]),
  (0xFD68, ["\u0634\u062D\u0645", "\u0634\u062C\u064A", "\u0634\u0645\u062E", "\u0634\u0645\u062E"]),
  (0xFD6C, ["\u0634\u0645\u0645", "\u0634\u0645\u0645", "\u0636\u062D\u0649", "\u0636\u062E\u0645"]),
  (0xFD70, ["\u0636\u062E\u0645", "\u0637\u0645\u062D", "\u0637\u0645\u062D", "\u0637\u0645\u0645"]),
  (0xFD74, ["\u0637\u0645\u064A", "\u0639\u062C\u0645", "\u0639\u0645\u0645", "\u0639\u0645\u0645"]),
  (0xFD78, ["\u0639\u0645\u0649", "\u063A\u0645\u0645", "\u063A\u0645\u064A", "\u063A\u0645\u0649"]),
  (0xFD7C, ["\u0641\u062E\u0645", "\u0641\u062E\u0645", "\u0642\u0645\u062D", "\u0642\u0645\u0645"]),
  (0xFD80, ["\u0644\u062D\u0645", "\u0644\u062D\u064A", "\u0644\u062D\u0649", "\u0644\u062C\u062C"]),
  (0xFD84, ["\u0644\u062C\u062C", "\u0644\u062E\u0645", "\u0644\u062E\u0645", "\u0644\u0645\u062D"]),
  (0xFD88, ["\u0644\u0645\u062D", "\u0645\u062D\u062C", "\u0645\u062D\u0645", "\u0645\u062D\u064A"]),
  (0xFD8C, ["\u0645\u062C\u062D", "\u0645\u062C\u0645", "\u0645\u062E\u062C", "\u0645\u062E\u0645"]),
  (0xFD92, ["\u0645\u062C\u062E", "\u0647\u0645\u062C", "\u0647\u0645\u0645", "\u0646\u062D\u0645"]),
  (0xFD96, ["\u0646\u062D\u0649", "\u0646\u062C\u0645", "\u0646\u062C\u0645", "\u0646\u062C\u0649"]),
  (0xFD9A, ["\u0646\u0645\u064A", "\u0646\u0645\u0649", "\u064A\u0645\u0645", "\u064A\u0645\u0645"]),
  (0xFD9E, ["\u0628\u062E\u064A", "\u062A\u062C\u064A", "\u062A\u062C\u0649", "\u062A\u062E\u064A"]),
  (0xFDA2, ["\u062A\u062E\u0649", "\u062A\u0645\u064A", "\u062A\u0645\u0649", "\u062C\u0645\u064A"]),
  (0xFDA6, ["\u062C\u062D\u0649", "\u062C\u0645\u0649", "\u0633\u062E\u0649", "\u0635\u062D\u064A"]),
  (0xFDAA, ["\u0634\u062D\u064A", "\u0636\u062D\u064A", "\u0644\u062C\u064A", "\u0644\u0645\u064A"]),
  (0xFDAE, ["\u064A\u062D\u064A", "\u064A\u062C\u064A", "\u064A\u0645\u064A", "\u0645\u0645\u064A"]),
  (0xFDB2, ["\u0642\u0645\u064A", "\u0646\u062D\u064A", "\u0642\u0645\u062D", "\u0644\u062D\u0645"]),
  (0xFDB6, ["\u0639\u0645\u064A", "\u0643\u0645\u064A", "\u0646\u062C\u062D", "\u0645\u062E\u064A"]),
  (0xFDBA, ["\u0644\u062C\u0645", "\u0643\u0645\u0645", "\u0644\u062C\u0645", "\u0646\u062C\u062D"]),
  (0xFDBE, ["\u062C\u062D\u064A", "\u062D\u062C\u064A", "\u0645\u062C\u064A", "\u0641\u0645\u064A"]),
  (0xFDC2, ["\u0628\u062D\u064A", "\u0643\u0645\u0645", "\u0639\u062C\u0645", "\u0635\u0645\u0645"]),
  (0xFDC6, ["\u0633\u062E\u064A", "\u0646\u062C\u064A"]),
  (0xFDF0, ["\u0635\u0644\u06D2", "\u0642\u0644\u06D2", "\u0627\u0644\u0644\u0647"]),
  (0xFDF3, ["\u0627\u0643\u0628\u0631", "\u0645\u062D\u0645\u062F", "\u0635\u0644\u0639\u0645"]),
  (0xFDF6, ["\u0631\u0633\u0648\u0644", "\u0639\u0644\u064A\u0647", "\u0648\u0633\u0644\u0645"]),
  (0xFDF9, ["\u0635\u0644\u0649"]),
  (0xFDFA, ["\u0635\u0644\u0649 \u0627\u0644\u0644\u0647 \u0639\u0644\u064A\u0647 \u0648\u0633\u0644\u0645"]),
  (0xFDFB, ["\u062C\u0644 \u062C\u0644\u0627\u0644\u0647", "\u0631\u06CC\u0627\u0644"]),
  (0xFE49, [" \u0305", " \u0305", " \u0305", " \u0305"]), (0xFE70, [" \u064B", "\u0640\u064B", " \u064C"]),
  (0xFE74, [" \u064D"]),
  (0xFE76, [" \u064E", "\u0640\u064E", " \u064F", "\u0640\u064F", " \u0650", "\u0640\u0650"]),
  (0xFE7C, [" \u0651", "\u0640\u0651", " \u0652", "\u0640\u0652"]),
  (0xFEF5, ["\u0644\u0622", "\u0644\u0622", "\u0644\u0623", "\u0644\u0623", "\u0644\u0625"]),
  (0xFEFA, ["\u0644\u0625", "\u0644\u0627", "\u0644\u0627"]), (0xFFE3, [" \u0304"]),
  (0x1F101, ["0,", "1,", "2,", "3,", "4,", "5,", "6,", "7,", "8,", "9,"]),
  (0x1F110, ["(a)", "(b)", "(c)", "(d)", "(e)", "(f)", "(g)", "(h)", "(i)", "(j)", "(k)", "(l)"]),
  (0x1F11C, ["(m)", "(n)", "(o)", "(p)", "(q)", "(r)", "(s)", "(t)", "(u)", "(v)", "(w)", "(x)"]),
  (0x1F128, ["(y)", "(z)", "〔s〕"]), (0x1F12D, ["cd", "wz"]),
  (0x1F14A, ["hv", "mv", "sd", "ss", "ppv", "wc"]), (0x1F16A, ["mc", "md", "mr"]), (0x1F190, ["dj"]),
  (0x1F200, ["ほか", "ココ"]),
  (0x1F240, ["〔本〕", "〔三〕", "〔二〕", "〔安〕", "〔点〕", "〔打〕", "〔盗〕", "〔勝〕"]),
  (0x1F248, ["〔敗〕"])]

/-- Characters that are dropped, as inclusive ranges. -/
def ignored : Array (Nat × Nat) := #[
  (0xAD, 0xAD), (0x34F, 0x34F), (0x115F, 0x1160), (0x17B4, 0x17B5), (0x180B, 0x180F), (0x200B, 0x200B),
  (0x2060, 0x2064), (0x206A, 0x206F), (0x3164, 0x3164), (0xFE00, 0xFE0F), (0xFEFF, 0xFEFF),
  (0xFFA0, 0xFFA0), (0x1BCA0, 0x1BCA3), (0x1D173, 0x1D17A), (0xE0100, 0xE01EF)]

/-- Characters that show by themselves and that no domain name may have, as inclusive ranges. -/
def refused : Array (Nat × Nat) := #[
  (0x2024, 0x2026), (0x2488, 0x249B), (0x2FF0, 0x2FFF), (0x31EF, 0x31EF), (0x33C2, 0x33C2),
  (0x33C7, 0x33C7), (0x33D8, 0x33D8), (0xFE12, 0xFE12), (0xFE19, 0xFE19), (0xFE30, 0xFE30),
  (0xFE52, 0xFE52), (0xFFFC, 0xFFFD), (0x1F100, 0x1F100)]

/-- The single character that a code point above ASCII is replaced by. -/
def single? (n : Nat) : Option Char :=
  if alternating.any fun (lo, hi) => lo ≤ n && n ≤ hi && (n - lo) % 2 = 0 then some (Char.ofNat (n + 1))
  else
    match shifted.find? fun (lo, hi, _) => lo ≤ n && n ≤ hi with
    | some (lo, _, target) => some (Char.ofNat (target + (n - lo)))
    | none => Composite.inRuns? (listed.map fun (first, text) => (first, text.toList)) n

/-- What a character of a domain name is replaced by. -/
def replacement (c : Char) : List Char :=
  let n := c.toNat
  if n < 0x80 then [c.toLower]
  else if inRanges ignored n then []
  else
    match single? n with
    | some d => [d]
    | none => ((Composite.inRuns? expanded n).map String.toList).getD [c]

/-- Characters above ASCII that a domain name may not have, whatever they are replaced by. The two joiners are
judged by their neighbours. -/
def isRefused (c : Char) : Bool :=
  let n := c.toNat
  0x80 ≤ n && n ≠ 0x200C && n ≠ 0x200D && (inRanges Ranges.unprintable n || inRanges refused n)

end DomainMapping

end AppBundler
