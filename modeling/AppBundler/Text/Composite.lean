/-!
# Composite characters

A letter with a mark may be written as one character or as two. The pairs below are read both ways: a composite
splits into a character and a mark, and these two make the composite again. Other characters are only another
spelling of one or several characters, and are never made of them. Syllables of Hangul are not in tables,
because their code points tell their parts.
-/

namespace AppBundler

namespace Composite

/-- A mark, the characters that it attaches to and, in the same order, what each of them becomes with it. -/
def pairs : Array (Nat × String × String) := #[
  (0x300, "AEIOUaeiouÜüNnЕИеиĒēŌōWw", "ÀÈÌÒÙàèìòùǛǜǸǹЀЍѐѝḔḕṐṑẀẁ"),
  (0x300, "ÂâĂăÊêÔôƠơƯưYyἀἁἈἉἐἑἘἙἠἡ", "ẦầẰằỀềỒồỜờỪừỲỳἂἃἊἋἒἓἚἛἢἣ"),
  (0x300, "ἨἩἰἱἸἹὀὁὈὉὐὑὙὠὡὨὩαεηιουω", "ἪἫἲἳἺἻὂὃὊὋὒὓὛὢὣὪὫὰὲὴὶὸὺὼ"),
  (0x300, "ΑΕΗ᾿ϊΙ῾ϋΥ¨ΟΩ", "ᾺῈῊ῍ῒῚ῝ῢῪ῭ῸῺ"),
  (0x301, "AEIOUYaeiouyCcLlNnRrSsZz", "ÁÉÍÓÚÝáéíóúýĆćĹĺŃńŔŕŚśŹź"),
  (0x301, "ÜüGgÅåÆæØø¨ΑΕΗΙΟΥΩϊαεηιϋ", "ǗǘǴǵǺǻǼǽǾǿ΅ΆΈΉΊΌΎΏΐάέήίΰ"),
  (0x301, "ουωϒГКгкÇçĒēÏïKkMmÕõŌōPp", "όύώϓЃЌѓќḈḉḖḗḮḯḰḱḾḿṌṍṒṓṔṕ"),
  (0x301, "ŨũWwÂâĂăÊêÔôƠơƯưἀἁἈἉἐἑἘἙ", "ṸṹẂẃẤấẮắẾếỐốỚớỨứἄἅἌἍἔἕἜἝ"),
  (0x301, "ἠἡἨἩἰἱἸἹὀὁὈὉὐὑὙὠὡὨὩ᾿῾", "ἤἥἬἭἴἵἼἽὄὅὌὍὔὕὝὤὥὬὭ῎῞"),
  (0x302, "AEIOUaeiouCcGgHhJjSsWwYy", "ÂÊÎÔÛâêîôûĈĉĜĝĤĥĴĵŜŝŴŵŶŷ"),
  (0x302, "ZzẠạẸẹỌọ", "ẐẑẬậỆệỘộ"),
  (0x303, "ANOanoIiUuVvÂâĂăEeÊêÔôƠơ", "ÃÑÕãñõĨĩŨũṼṽẪẫẴẵẼẽỄễỖỗỠỡ"),
  (0x303, "ƯưYy", "ỮữỸỹ"),
  (0x304, "AaEeIiOoUuÜüÄäȦȧÆæǪǫÖöÕõ", "ĀāĒēĪīŌōŪūǕǖǞǟǠǡǢǣǬǭȪȫȬȭ"),
  (0x304, "ȮȯYyИиУуGgḶḷṚṛαΑιΙυΥ", "ȰȱȲȳӢӣӮӯḠḡḸḹṜṝᾱᾹῑῙῡῩ"),
  (0x306, "AaEeGgIiOoUuУИиуЖжАаЕеȨȩ", "ĂăĔĕĞğĬĭŎŏŬŭЎЙйўӁӂӐӑӖӗḜḝ"),
  (0x306, "ẠạαΑιΙυΥ", "ẶặᾰᾸῐῘῠῨ"),
  (0x307, "CcEeGgIZzAaOoBbDdFfHhMmN", "ĊċĖėĠġİŻżȦȧȮȯḂḃḊḋḞḟḢḣṀṁṄ"),
  (0x307, "nPpRrSsŚśŠšṢṣTtWwXxYyſ𐗒𐗚", "ṅṖṗṘṙṠṡṤṥṦṧṨṩṪṫẆẇẊẋẎẏẛ𐗉𐗤"),
  (0x308, "AEIOUaeiouyYΙΥιυϒЕІеіАаӘ", "ÄËÏÖÜäëïöüÿŸΪΫϊϋϔЁЇёїӒӓӚ"),
  (0x308, "әЖжЗзИиОоӨөЭэУуЧчЫыHhÕõŪ", "ӛӜӝӞӟӤӥӦӧӪӫӬӭӰӱӴӵӸӹḦḧṎṏṺ"),
  (0x308, "ūWwXxt", "ṻẄẅẌẍẗ"),
  (0x309, "AaÂâĂăEeÊêIiOoÔôƠơUuƯưYy", "ẢảẨẩẲẳẺẻỂểỈỉỎỏỔổỞởỦủỬửỶỷ"),
  (0x30A, "AaUuwy", "ÅåŮůẘẙ"),
  (0x30B, "OoUuУу", "ŐőŰűӲӳ"),
  (0x30C, "CcDdEeLlNnRrSsTtZzAaIiOo", "ČčĎďĚěĽľŇňŘřŠšŤťŽžǍǎǏǐǑǒ"),
  (0x30C, "UuÜüGgKkƷʒjHh", "ǓǔǙǚǦǧǨǩǮǯǰȞȟ"),
  (0x30F, "AaEeIiOoRrUuѴѵ", "ȀȁȄȅȈȉȌȍȐȑȔȕѶѷ"),
  (0x311, "AaEeIiOoRrUu", "ȂȃȆȇȊȋȎȏȒȓȖȗ"),
  (0x313, "αΑεΕηΗιΙοΟυωΩρ", "ἀἈἐἘἠἨἰἸὀὈὐὠὨῤ"),
  (0x314, "αΑεΕηΗιΙοΟυΥωΩρΡ", "ἁἉἑἙἡἩἱἹὁὉὑὙὡὩῥῬ"),
  (0x31B, "OoUu", "ƠơƯư"),
  (0x323, "BbDdHhKkLlMmNnRrSsTtVvWw", "ḄḅḌḍḤḥḲḳḶḷṂṃṆṇṚṛṢṣṬṭṾṿẈẉ"),
  (0x323, "ZzAaEeIiOoƠơUuƯưYy", "ẒẓẠạẸẹỊịỌọỢợỤụỰựỴỵ"),
  (0x324, "Uu", "Ṳṳ"),
  (0x325, "Aa", "Ḁḁ"),
  (0x326, "SsTt", "ȘșȚț"),
  (0x327, "CcGgKkLlNnRrSsTtEeDdHh", "ÇçĢģĶķĻļŅņŖŗŞşŢţȨȩḐḑḨḩ"),
  (0x328, "AaEeIiUuOo", "ĄąĘęĮįŲųǪǫ"),
  (0x32D, "DdEeLlNnTtUu", "ḒḓḘḙḼḽṊṋṰṱṶṷ"),
  (0x32E, "Hh", "Ḫḫ"),
  (0x330, "EeIiUu", "ḚḛḬḭṴṵ"),
  (0x331, "BbDdKkLlNnRrTtZzh", "ḆḇḎḏḴḵḺḻṈṉṞṟṮṯẔẕẖ"),
  (0x338, "←→↔⇐⇔⇒∃∈∋∣∥∼≃≅≈=≡≍<>≤≥≲≳", "↚↛↮⇍⇎⇏∄∉∌∤∦≁≄≇≉≠≢≭≮≯≰≱≴≵"),
  (0x338, "≶≷≺≻⊂⊃⊆⊇⊢⊨⊩⊫≼≽⊑⊒⊲⊳⊴⊵", "≸≹⊀⊁⊄⊅⊈⊉⊬⊭⊮⊯⋠⋡⋢⋣⋪⋫⋬⋭"),
  (0x342, "ἀἁἈἉἠἡἨἩἰἱἸἹὐὑὙὠὡὨὩα¨η᾿ι", "ἆἇἎἏἦἧἮἯἶἷἾἿὖὗὟὦὧὮὯᾶ῁ῆ῏ῖ"),
  (0x342, "ϊ῾υϋω", "ῗ῟ῦῧῶ"),
  (0x345, "ἀἁἂἃἄἅἆἇἈἉἊἋἌἍἎἏἠἡἢἣἤἥἦἧ", "ᾀᾁᾂᾃᾄᾅᾆᾇᾈᾉᾊᾋᾌᾍᾎᾏᾐᾑᾒᾓᾔᾕᾖᾗ"),
  (0x345, "ἨἩἪἫἬἭἮἯὠὡὢὣὤὥὦὧὨὩὪὫὬὭὮὯ", "ᾘᾙᾚᾛᾜᾝᾞᾟᾠᾡᾢᾣᾤᾥᾦᾧᾨᾩᾪᾫᾬᾭᾮᾯ"),
  (0x345, "ὰαάᾶΑὴηήῆΗὼωώῶΩ", "ᾲᾳᾴᾷᾼῂῃῄῇῌῲῳῴῷῼ"),
  (0x653, "\u0627", "\u0622"),
  (0x654, "\u0627\u0648\u064A\u06D5\u06C1\u06D2", "\u0623\u0624\u0626\u06C0\u06C2\u06D3"),
  (0x655, "\u0627", "\u0625"),
  (0x93C, "नरळ", "ऩऱऴ"),
  (0x9BE, "\u09C7", "\u09CB"),
  (0x9D7, "\u09C7", "\u09CC"),
  (0xB3E, "\u0B47", "\u0B4B"),
  (0xB56, "\u0B47", "\u0B48"),
  (0xB57, "\u0B47", "\u0B4C"),
  (0xBBE, "\u0BC6\u0BC7", "\u0BCA\u0BCB"),
  (0xBD7, "ஒ\u0BC6", "ஔ\u0BCC"),
  (0xC56, "\u0C46", "\u0C48"),
  (0xCC2, "\u0CC6", "\u0CCA"),
  (0xCD5, "\u0CBF\u0CC6\u0CCA", "\u0CC0\u0CC7\u0CCB"),
  (0xCD6, "\u0CC6", "\u0CC8"),
  (0xD3E, "\u0D46\u0D47", "\u0D4A\u0D4B"),
  (0xD57, "\u0D46", "\u0D4C"),
  (0xDCA, "\u0DD9\u0DDC", "\u0DDA\u0DDD"),
  (0xDCF, "\u0DD9", "\u0DDC"),
  (0xDDF, "\u0DD9", "\u0DDE"),
  (0x102E, "ဥ", "ဦ"),
  (0x1B35, "ᬅᬇᬉᬋᬍᬑ\u1B3A\u1B3C\u1B3E\u1B3F\u1B42", "ᬆᬈᬊᬌᬎᬒ\u1B3B\u1B3D\u1B40\u1B41\u1B43"),
  (0x3099,
    "かきくけこさしすせそたちつてとはひふへほうゝカキ",
    "がぎぐげござじずぜぞだぢづでどばびぶべぼゔゞガギ"),
  (0x3099,
    "クケコサシスセソタチツテトハヒフヘホウワヰヱヲヽ",
    "グゲゴザジズゼゾダヂヅデドバビブベボヴヷヸヹヺヾ"),
  (0x309A, "はひふへほハヒフヘホ", "ぱぴぷぺぽパピプペポ"),
  (0x110BA, "𑂙𑂛𑂥", "𑂚𑂜𑂫"),
  (0x11127, "𑄱𑄲", "𑄮𑄯"),
  (0x1133E, "𑍇", "𑍋"),
  (0x11357, "𑍇", "𑍌"),
  (0x113B8, "𑏂", "𑏇"),
  (0x113BB, "𑎄", "𑎅"),
  (0x113C2, "𑎎", "𑎎𑏅"),
  (0x113C9, "𑎂𑎐𑏂", "𑎃𑎑𑏈"),
  (0x114B0, "𑒹", "𑒼"),
  (0x114BA, "𑒹", "𑒻"),
  (0x114BD, "𑒹", "𑒾"),
  (0x115AF, "𑖸𑖹", "𑖺𑖻"),
  (0x11930, "𑤵", "𑤸"),
  (0x1611E, "𖄞", "𖄡"),
  (0x1611F, "𖄢𖄡𖄢", "𖄣𖄤𖄦𖄧"),
  (0x16120, "𖄡𖄞", "𖄥𖄨"),
  (0x16129, "𖄞", "𖄢"),
  (0x16D67, "𖵧𖵣𖵩", "𖵨𖵩𖵪")]

/-- Runs of characters each of which is another spelling of one character: the first code point of the run and
what its characters stand for. -/
def singles : Array (Nat × String) := #[
  (0x340, "\u0300\u0301"), (0x343, "\u0313"), (0x374, "ʹ"), (0x37E, ";"), (0x387, "·"), (0x1F71, "ά"),
  (0x1F73, "έ"), (0x1F75, "ή"), (0x1F77, "ί"), (0x1F79, "ό"), (0x1F7B, "ύ"), (0x1F7D, "ώ"), (0x1FBB, "Ά"),
  (0x1FBE, "ι"), (0x1FC9, "Έ"), (0x1FCB, "Ή"), (0x1FD3, "ΐ"), (0x1FDB, "Ί"), (0x1FE3, "ΰ"), (0x1FEB, "Ύ"),
  (0x1FEE, "΅\x60"), (0x1FF9, "Ό"), (0x1FFB, "Ώ"), (0x1FFD, "´"), (0x2000, "\u2002\u2003"), (0x2126, "Ω"),
  (0x212A, "KÅ"), (0x2329, "〈〉"),
  (0xF900, "豈更車賈滑串句龜龜契金喇奈懶癩羅蘿螺裸邏樂洛烙珞落酪駱亂卵欄爛蘭鸞嵐濫藍襤拉臘蠟廊朗浪狼"),
  (0xF92C, "郎來冷勞擄櫓爐盧老蘆虜路露魯鷺碌祿綠菉錄鹿論壟弄籠聾牢磊賂雷壘屢樓淚漏累縷陋勒肋凜凌稜綾"),
  (0xF958, "菱陵讀拏樂諾丹寧怒率異北磻便復不泌數索參塞省葉說殺辰沈拾若掠略亮兩凉梁糧良諒量勵呂女廬旅"),
  (0xF984, "濾礪閭驪麗黎力曆歷轢年憐戀撚漣煉璉秊練聯輦蓮連鍊列劣咽烈裂說廉念捻殮簾獵令囹寧嶺怜玲瑩羚"),
  (0xF9B0, "聆鈴零靈領例禮醴隸惡了僚寮尿料樂燎療蓼遼龍暈阮劉杻柳流溜琉留硫紐類六戮陸倫崙淪輪律慄栗率"),
  (0xF9DC, "隆利吏履易李梨泥理痢罹裏裡里離匿溺吝燐璘藺隣鱗麟林淋臨立笠粒狀炙識什茶刺切度拓糖宅洞暴輻"),
  (0xFA08, "行降見廓兀嗀"), (0xFA10, "塚"), (0xFA12, "晴"), (0xFA15, "凞猪益礼神祥福靖精羽"),
  (0xFA20, "蘒"), (0xFA22, "諸"), (0xFA25, "逸都"),
  (0xFA2A, "飯飼館鶴郞隷侮僧免勉勤卑喝嘆器塀墨層屮悔慨憎懲敏既暑梅海渚漢煮爫琢碑社祉祈祐祖祝禍禎穀突"),
  (0xFA56, "節練縉繁署者臭艹艹著褐視謁謹賓贈辶逸難響頻恵𤋮舘"),
  (0xFA70, "並况全侀充冀勇勺喝啕喙嗢塚墳奄奔婢嬨廒廙彩徭惘慎愈憎慠懲戴揄搜摒敖晴朗望杖歹殺流滛滋漢瀞"),
  (0xFA9C, "煮瞧爵犯猪瑱甆画瘝瘟益盛直睊着磌窱節类絛練缾者荒華蝹襁覆視調諸請謁諾諭謹變贈輸遲醙鉶陼難"),
  (0xFAC8, "靖韛響頋頻鬒龜𢡊𢡄𣏕㮝䀘䀹𥉉𥳐𧻓齃龎"),
  (0x2F800, "丽丸乁𠄢你侮侻倂偺備僧像㒞𠘺免兔兤具𠔜㒹內再𠕋冗冤仌冬况𩇟凵刃㓟刻剆割剷㔕勇勉勤勺包匆北"),
  (0x2F82C, "卉卑博即卽卿卿卿𠨬灰及叟𠭣叫叱吆咞吸呈周咢哶唐啓啣善善喙喫喳嗂圖嘆圗噑噴切壮城埴堍型堲報"),
  (0x2F858, "墬𡓤売壷夆多夢奢𡚨𡛪姬娛娧姘婦㛮㛼嬈嬾嬾𡧈寃寘寧寳𡬘寿将当尢㞁屠屮峀岍𡷤嵃𡷦嵮嵫嵼巡巢㠯"),
  (0x2F884, "巽帨帽幩㡢𢆃㡼庰庳庶廊𪎒廾𢌱𢌱舁弢弢㣇𣊸𦇚形彫㣣徚忍志忹悁㤺㤜悔𢛔惇慈慌慎慌慺憎憲憤憯懞"),
  (0x2F8B0, "懲懶成戛扝抱拔捐𢬌挽拼捨掃揤𢯱搢揅掩㨮摩摾撝摷㩬敏敬𣀊旣書晉㬙暑㬈㫤冒冕最暜肭䏙朗望朡杞"),
  (0x2F8DC, "杓𣏃㭉柺枅桒梅𣑭梎栟椔㮝楂榣槪檨𣚣櫛㰘次𣢧歔㱎歲殟殺殻𣪍𡴋𣫺汎𣲼沿泍汧洖派海流浩浸涅𣴞洴"),
  (0x2F908, "港湮㴳滋滇𣻑淹潮𣽞𣾎濆瀹瀞瀛㶖灊災灷炭𠔥煅𤉣熜𤎫爨爵牐𤘈犀犕𤜵𤠔獺王㺬玥㺸㺸瑇瑜瑱璅瓊㼛"),
  (0x2F934, "甤𤰶甾𤲒異𢆟瘐𤾡𤾸𥁄㿼䀈直𥃳𥃲𥄙𥄳眞真真睊䀹瞋䁆䂖𥐝硎碌磌䃣𥘦祖𥚚𥛅福秫䄯穀穊穏𥥼𥪧𥪧竮"),
  (0x2F960, "䈂𥮫篆築䈧𥲀糒䊠糨糣紀𥾆絣䌁緇縂繅䌴𦈨𦉇䍙𦋙罺𦌾羕翺者𦓚𦔣聠𦖨聰𣍟䏕育脃䐋脾媵𦞧𦞵𣎓𣎜舁"),
  (0x2F98C, "舄辞䑫芑芋芝劳花芳芽苦𦬼若茝荣莭茣莽菧著荓菊菌菜𦰶𦵫𦳕䔫蓱蓳蔖𧏊蕤𦼬䕝䕡𦾱𧃒䕫虐虜虧虩蚩"),
  (0x2F9B8, "蚈蜎蛢蝹蜨蝫螆䗗蟡蠁䗹衠衣𧙧裗裞䘵裺㒻𧢮𧥦䚾䛇誠諭變豕𧲨貫賁贛起𧼯𠠄跋趼跰𠣞軔輸𨗒𨗭邔郱"),
  (0x2F9E4, "鄑𨜮鄛鈸鋗鋘鉼鏹鐕𨯺開䦕閷𨵷䧦雃嶲霣𩅅𩈚䩮䩶韠𩐊䪲𩒖頋頋頩𩖶飢䬳餩馧駂駾䯎𩬰鬒鱀鳽䳎䳭鵧"),
  (0x2FA10, "𪃎䳸𪄅𪈎𪊑麻䵖黹黾鼅鼏鼖鼻𪘀")]

/-- Runs of characters each of which stands for several characters and is never made of them again. -/
def several : Array (Nat × List String) := #[
  (0x344, ["\u0308\u0301"]),
  (0x958, ["क\u093C", "ख\u093C", "ग\u093C", "ज\u093C", "ड\u093C", "ढ\u093C", "फ\u093C", "य\u093C"]),
  (0x9DC, ["ড\u09BC", "ঢ\u09BC"]), (0x9DF, ["য\u09BC"]), (0xA33, ["ਲ\u0A3C"]), (0xA36, ["ਸ\u0A3C"]),
  (0xA59, ["ਖ\u0A3C", "ਗ\u0A3C", "ਜ\u0A3C"]), (0xA5E, ["ਫ\u0A3C"]), (0xB5C, ["ଡ\u0B3C", "ଢ\u0B3C"]),
  (0xF43, ["ག\u0FB7"]), (0xF4D, ["ཌ\u0FB7"]), (0xF52, ["ད\u0FB7"]), (0xF57, ["བ\u0FB7"]),
  (0xF5C, ["ཛ\u0FB7"]), (0xF69, ["ཀ\u0FB5"]), (0xF73, ["\u0F71\u0F72"]),
  (0xF75, ["\u0F71\u0F74", "\u0FB2\u0F80"]), (0xF78, ["\u0FB3\u0F80"]), (0xF81, ["\u0F71\u0F80"]),
  (0xF93, ["\u0F92\u0FB7"]), (0xF9D, ["\u0F9C\u0FB7"]), (0xFA2, ["\u0FA1\u0FB7"]),
  (0xFA7, ["\u0FA6\u0FB7"]), (0xFAC, ["\u0FAB\u0FB7"]), (0xFB9, ["\u0F90\u0FB5"]), (0x2ADC, ["⫝\u0338"]),
  (0xFB1D, ["\u05D9\u05B4"]), (0xFB1F, ["\u05F2\u05B7"]),
  (0xFB2A, ["\u05E9\u05C1", "\u05E9\u05C2", "\u05E9\u05BC\u05C1", "\u05E9\u05BC\u05C2"]),
  (0xFB2E, ["\u05D0\u05B7", "\u05D0\u05B8", "\u05D0\u05BC", "\u05D1\u05BC", "\u05D2\u05BC"]),
  (0xFB33, ["\u05D3\u05BC", "\u05D4\u05BC", "\u05D5\u05BC", "\u05D6\u05BC"]),
  (0xFB38, ["\u05D8\u05BC", "\u05D9\u05BC", "\u05DA\u05BC", "\u05DB\u05BC", "\u05DC\u05BC"]),
  (0xFB3E, ["\u05DE\u05BC"]), (0xFB40, ["\u05E0\u05BC", "\u05E1\u05BC"]),
  (0xFB43, ["\u05E3\u05BC", "\u05E4\u05BC"]),
  (0xFB46, ["\u05E6\u05BC", "\u05E7\u05BC", "\u05E8\u05BC", "\u05E9\u05BC", "\u05EA\u05BC"]),
  (0xFB4B, ["\u05D5\u05B9", "\u05D1\u05BF", "\u05DB\u05BF", "\u05E4\u05BF"]),
  (0x1D15E, ["𝅗𝅥", "𝅘𝅥", "𝅘𝅥𝅮", "𝅘𝅥𝅯", "𝅘𝅥𝅰", "𝅘𝅥𝅱", "𝅘𝅥𝅲"]),
  (0x1D1BB, ["𝆹𝅥", "𝆺𝅥", "𝆹𝅥𝅮", "𝆺𝅥𝅮", "𝆹𝅥𝅯", "𝆺𝅥𝅯"])]

/-- The replacement of a code point in a table of runs, each with its replacements in order. -/
def inRuns? {α : Type} (runs : Array (Nat × List α)) (n : Nat) : Option α :=
  runs.findSome? fun (first, found) => if n < first then none else found[n - first]?

/-- What a character that is only another spelling stands for. -/
def spelling? (c : Char) : Option (List Char) :=
  match inRuns? (singles.map fun (n, text) => (n, text.toList)) c.toNat with
  | some d => some [d]
  | none => (inRuns? several c.toNat).map String.toList

/-- The character and the mark that a composite is made of. -/
def split? (c : Char) : Option (Char × Char) :=
  pairs.findSome? fun (mark, bases, composites) =>
    ((composites.toList.zip bases.toList).lookup c).map fun base => (base, Char.ofNat mark)

/-! ## Syllables of Hangul -/

/-- The parts of a syllable: a leading consonant, a vowel and, in most syllables, a trailing consonant. -/
def splitSyllable? (c : Char) : Option (List Char) :=
  let n := c.toNat
  if 0xAC00 ≤ n && n ≤ 0xD7A3 then
    let i := n - 0xAC00
    let trailing := if i % 28 = 0 then [] else [Char.ofNat (0x11A7 + i % 28)]
    some (Char.ofNat (0x1100 + i / 588) :: Char.ofNat (0x1161 + i % 588 / 28) :: trailing)
  else none

/-- The syllable of two parts: a consonant and a vowel, or such a pair and a trailing consonant. -/
def joinSyllable? (a b : Char) : Option Char :=
  let x := a.toNat
  let y := b.toNat
  if 0x1100 ≤ x && x ≤ 0x1112 && 0x1161 ≤ y && y ≤ 0x1175 then
    some (Char.ofNat (0xAC00 + (x - 0x1100) * 588 + (y - 0x1161) * 28))
  else if 0xAC00 ≤ x && x ≤ 0xD7A3 && (x - 0xAC00) % 28 = 0 && 0x11A8 ≤ y && y ≤ 0x11C2 then
    some (Char.ofNat (x + (y - 0x11A7)))
  else none

/-! ## Splitting and joining -/

/-- Splits off at most `n` marks. -/
def splitMarks : Nat → Char → List Char
  | 0, c => [c]
  | n + 1, c =>
    match split? c with
    | none => [c]
    | some (base, mark) => splitMarks n base ++ [mark]

/-- The characters that a character is made of. No composite has more than three marks. -/
def parts (c : Char) : List Char :=
  if c.toNat < 0xC0 then [c]
  else (splitSyllable? c).getD (((spelling? c).getD [c]).flatMap (splitMarks 3))

/-- The character that two characters make. -/
def join? (a b : Char) : Option Char :=
  match joinSyllable? a b with
  | some c => some c
  | none =>
    pairs.findSome? fun (mark, bases, composites) =>
      if b.toNat = mark then (bases.toList.zip composites.toList).lookup a else none

end Composite

end AppBundler
