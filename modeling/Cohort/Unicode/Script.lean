import Cohort.Unicode.Runs

/-!
# Scripts of Unicode characters

`Script.set` gives the characters of the script with a four-letter code (Unicode 16), by runs from
code point 0 up: each run is its length, left out when it is 1, and the code. `Script.useSet` gives
those that the script uses, which some share.
-/

namespace Cohort.Unicode.Script

/-- The names of each script; the first one is its code. -/
def names : List (List String) :=
  [["Adlm", "Adlam"], ["Aghb", "Caucasian_Albanian"], ["Ahom"], ["Arab", "Arabic"],
   ["Armi", "Imperial_Aramaic"], ["Armn", "Armenian"], ["Avst", "Avestan"], ["Bali", "Balinese"],
   ["Bamu", "Bamum"], ["Bass", "Bassa_Vah"], ["Batk", "Batak"], ["Beng", "Bengali"],
   ["Bhks", "Bhaiksuki"], ["Bopo", "Bopomofo"], ["Brah", "Brahmi"], ["Brai", "Braille"],
   ["Bugi", "Buginese"], ["Buhd", "Buhid"], ["Cakm", "Chakma"], ["Cans", "Canadian_Aboriginal"],
   ["Cari", "Carian"], ["Cham"], ["Cher", "Cherokee"], ["Chrs", "Chorasmian"],
   ["Copt", "Coptic", "Qaac"], ["Cpmn", "Cypro_Minoan"], ["Cprt", "Cypriot"],
   ["Cyrl", "Cyrillic"], ["Deva", "Devanagari"], ["Diak", "Dives_Akuru"], ["Dogr", "Dogra"],
   ["Dsrt", "Deseret"], ["Dupl", "Duployan"], ["Egyp", "Egyptian_Hieroglyphs"],
   ["Elba", "Elbasan"], ["Elym", "Elymaic"], ["Ethi", "Ethiopic"], ["Gara", "Garay"],
   ["Geor", "Georgian"], ["Glag", "Glagolitic"], ["Gong", "Gunjala_Gondi"],
   ["Gonm", "Masaram_Gondi"], ["Goth", "Gothic"], ["Gran", "Grantha"], ["Grek", "Greek"],
   ["Gujr", "Gujarati"], ["Gukh", "Gurung_Khema"], ["Guru", "Gurmukhi"], ["Hang", "Hangul"],
   ["Hani", "Han"], ["Hano", "Hanunoo"], ["Hatr", "Hatran"], ["Hebr", "Hebrew"],
   ["Hira", "Hiragana"], ["Hluw", "Anatolian_Hieroglyphs"], ["Hmng", "Pahawh_Hmong"],
   ["Hmnp", "Nyiakeng_Puachue_Hmong"], ["Hung", "Old_Hungarian"], ["Ital", "Old_Italic"],
   ["Java", "Javanese"], ["Kali", "Kayah_Li"], ["Kana", "Katakana"], ["Kawi"],
   ["Khar", "Kharoshthi"], ["Khmr", "Khmer"], ["Khoj", "Khojki"], ["Kits", "Khitan_Small_Script"],
   ["Knda", "Kannada"], ["Krai", "Kirat_Rai"], ["Kthi", "Kaithi"], ["Lana", "Tai_Tham"],
   ["Laoo", "Lao"], ["Latn", "Latin"], ["Lepc", "Lepcha"], ["Limb", "Limbu"],
   ["Lina", "Linear_A"], ["Linb", "Linear_B"], ["Lisu"], ["Lyci", "Lycian"], ["Lydi", "Lydian"],
   ["Mahj", "Mahajani"], ["Maka", "Makasar"], ["Mand", "Mandaic"], ["Mani", "Manichaean"],
   ["Marc", "Marchen"], ["Medf", "Medefaidrin"], ["Mend", "Mende_Kikakui"],
   ["Merc", "Meroitic_Cursive"], ["Mero", "Meroitic_Hieroglyphs"], ["Mlym", "Malayalam"],
   ["Modi"], ["Mong", "Mongolian"], ["Mroo", "Mro"], ["Mtei", "Meetei_Mayek"],
   ["Mult", "Multani"], ["Mymr", "Myanmar"], ["Nagm", "Nag_Mundari"], ["Nand", "Nandinagari"],
   ["Narb", "Old_North_Arabian"], ["Nbat", "Nabataean"], ["Newa"], ["Nkoo", "Nko"],
   ["Nshu", "Nushu"], ["Ogam", "Ogham"], ["Olck", "Ol_Chiki"], ["Onao", "Ol_Onal"],
   ["Orkh", "Old_Turkic"], ["Orya", "Oriya"], ["Osge", "Osage"], ["Osma", "Osmanya"],
   ["Ougr", "Old_Uyghur"], ["Palm", "Palmyrene"], ["Pauc", "Pau_Cin_Hau"], ["Perm", "Old_Permic"],
   ["Phag", "Phags_Pa"], ["Phli", "Inscriptional_Pahlavi"], ["Phlp", "Psalter_Pahlavi"],
   ["Phnx", "Phoenician"], ["Plrd", "Miao"], ["Prti", "Inscriptional_Parthian"],
   ["Rjng", "Rejang"], ["Rohg", "Hanifi_Rohingya"], ["Runr", "Runic"], ["Samr", "Samaritan"],
   ["Sarb", "Old_South_Arabian"], ["Saur", "Saurashtra"], ["Sgnw", "SignWriting"],
   ["Shaw", "Shavian"], ["Shrd", "Sharada"], ["Sidd", "Siddham"], ["Sind", "Khudawadi"],
   ["Sinh", "Sinhala"], ["Sogd", "Sogdian"], ["Sogo", "Old_Sogdian"], ["Sora", "Sora_Sompeng"],
   ["Soyo", "Soyombo"], ["Sund", "Sundanese"], ["Sunu", "Sunuwar"], ["Sylo", "Syloti_Nagri"],
   ["Syrc", "Syriac"], ["Tagb", "Tagbanwa"], ["Takr", "Takri"], ["Tale", "Tai_Le"],
   ["Talu", "New_Tai_Lue"], ["Taml", "Tamil"], ["Tang", "Tangut"], ["Tavt", "Tai_Viet"],
   ["Telu", "Telugu"], ["Tfng", "Tifinagh"], ["Tglg", "Tagalog"], ["Thaa", "Thaana"], ["Thai"],
   ["Tibt", "Tibetan"], ["Tirh", "Tirhuta"], ["Tnsa", "Tangsa"], ["Todr", "Todhri"], ["Toto"],
   ["Tutg", "Tulu_Tigalari"], ["Ugar", "Ugaritic"], ["Vaii", "Vai"], ["Vith", "Vithkuqi"],
   ["Wara", "Warang_Citi"], ["Wcho", "Wancho"], ["Xpeo", "Old_Persian"], ["Xsux", "Cuneiform"],
   ["Yezi", "Yezidi"], ["Yiii", "Yi"], ["Zanb", "Zanabazar_Square"],
   ["Zinh", "Inherited", "Qaai"], ["Zyyy", "Common"]]

/-- The runs of the table, in order. -/
def runText : List String :=
  ["65Zyyy26Latn6Zyyy26Latn47ZyyyLatn15ZyyyLatn5Zyyy23LatnZyyy31LatnZyyy449Latn39Zyyy5Latn5Zyyy",
   "2Bopo20Zyyy112Zinh4GrekZyyy3Grek2Zzzz4GrekZyyyGrek4ZzzzGrekZyyyGrekZyyy3GrekZzzzGrekZzzz",
   "20GrekZzzz63Grek14Copt16Grek133Cyrl2Zinh169CyrlZzzz38Armn2Zzzz50Armn2Zzzz3ArmnZzzz55Hebr",
   "8Zzzz27Hebr4Zzzz6Hebr11Zzzz5ArabZyyy6ArabZyyy14ArabZyyy3ArabZyyy32ArabZyyy10Arab11Zinh26Arab",
   "Zinh108ArabZyyy34Arab14SyrcZzzz60Syrc2Zzzz3Syrc48Arab50Thaa14Zzzz59Nkoo2Zzzz3Nkoo46Samr2Zzzz",
   "15SamrZzzz28Mand2ZzzzMandZzzz11Syrc5Zzzz31ArabZzzz2Arab5Zzzz75ArabZyyy29Arab81Deva4Zinh",
   "15Deva2Zyyy26Deva4BengZzzz8Beng2Zzzz2Beng2Zzzz22BengZzzz7BengZzzzBeng3Zzzz4Beng2Zzzz9Beng",
   "2Zzzz2Beng2Zzzz4Beng8ZzzzBeng4Zzzz2BengZzzz5Beng2Zzzz25Beng2Zzzz3GuruZzzz6Guru4Zzzz2Guru",
   "2Zzzz22GuruZzzz7GuruZzzz2GuruZzzz2GuruZzzz2Guru2ZzzzGuruZzzz5Guru4Zzzz2Guru2Zzzz3Guru3Zzzz",
   "Guru7Zzzz4GuruZzzzGuru7Zzzz17Guru10Zzzz3GujrZzzz9GujrZzzz3GujrZzzz22GujrZzzz7GujrZzzz2Gujr",
   "Zzzz5Gujr2Zzzz10GujrZzzz3GujrZzzz3Gujr2ZzzzGujr15Zzzz4Gujr2Zzzz12Gujr7Zzzz7GujrZzzz3OryaZzzz",
   "8Orya2Zzzz2Orya2Zzzz22OryaZzzz7OryaZzzz2OryaZzzz5Orya2Zzzz9Orya2Zzzz2Orya2Zzzz3Orya7Zzzz",
   "3Orya4Zzzz2OryaZzzz5Orya2Zzzz18Orya10Zzzz2TamlZzzz6Taml3Zzzz3TamlZzzz4Taml3Zzzz2TamlZzzzTaml",
   "Zzzz2Taml3Zzzz2Taml3Zzzz3Taml3Zzzz12Taml4Zzzz5Taml3Zzzz3TamlZzzz4Taml2ZzzzTaml6ZzzzTaml",
   "14Zzzz21Taml5Zzzz13TeluZzzz3TeluZzzz23TeluZzzz16Telu2Zzzz9TeluZzzz3TeluZzzz4Telu7Zzzz2Telu",
   "Zzzz3Telu2ZzzzTelu2Zzzz4Telu2Zzzz10Telu7Zzzz9Telu13KndaZzzz3KndaZzzz23KndaZzzz10KndaZzzz",
   "5Knda2Zzzz9KndaZzzz3KndaZzzz4Knda7Zzzz2Knda6Zzzz2KndaZzzz4Knda2Zzzz10KndaZzzz3Knda12Zzzz",
   "13MlymZzzz3MlymZzzz51MlymZzzz3MlymZzzz6Mlym4Zzzz16Mlym2Zzzz26MlymZzzz3SinhZzzz18Sinh3Zzzz",
   "24SinhZzzz9SinhZzzzSinh2Zzzz7Sinh3ZzzzSinh4Zzzz6SinhZzzzSinhZzzz8Sinh6Zzzz10Sinh2Zzzz3Sinh",
   "12Zzzz58Thai4ZzzzZyyy28Thai37Zzzz2LaooZzzzLaooZzzz5LaooZzzz24LaooZzzzLaooZzzz23Laoo2Zzzz",
   "5LaooZzzzLaooZzzz7LaooZzzz10Laoo2Zzzz4Laoo32Zzzz72TibtZzzz36Tibt4Zzzz39TibtZzzz36TibtZzzz",
   "15TibtZzzz7Tibt4Zyyy2Tibt37Zzzz160Mymr38GeorZzzzGeor5ZzzzGeor2Zzzz43GeorZyyy4Geor256Hang",
   "73EthiZzzz4Ethi2Zzzz7EthiZzzzEthiZzzz4Ethi2Zzzz41EthiZzzz4Ethi2Zzzz33EthiZzzz4Ethi2Zzzz7Ethi",
   "ZzzzEthiZzzz4Ethi2Zzzz15EthiZzzz57EthiZzzz4Ethi2Zzzz67Ethi2Zzzz32Ethi3Zzzz26Ethi6Zzzz86Cher",
   "2Zzzz6Cher2Zzzz640Cans29Ogam3Zzzz75Runr3Zyyy11Runr7Zzzz22Tglg9ZzzzTglg21Hano2Zyyy9Zzzz20Buhd",
   "12Zzzz13TagbZzzz3TagbZzzz2Tagb12Zzzz94Khmr2Zzzz10Khmr6Zzzz10Khmr6Zzzz2Mong2ZyyyMongZyyy",
   "20Mong6Zzzz89Mong7Zzzz43Mong5Zzzz70Cans10Zzzz31LimbZzzz12Limb4Zzzz12Limb4ZzzzLimb3Zzzz12Limb",
   "30Tale2Zzzz5Tale11Zzzz44Talu4Zzzz26Talu6Zzzz11Talu3Zzzz2Talu32Khmr28Bugi2Zzzz2Bugi63LanaZzzz",
   "29Lana2Zzzz11Lana6Zzzz10Lana6Zzzz14Lana2Zzzz31Zinh49Zzzz77BaliZzzz50Bali64Sund52Batk8Zzzz",
   "4Batk56Lepc3Zzzz15Lepc3Zzzz3Lepc48Olck11Cyrl5Zzzz43Geor2Zzzz3Geor8Sund8Zzzz3ZinhZyyy13Zinh",
   "Zyyy7Zinh4ZyyyZinh6ZyyyZinh3Zyyy2ZinhZyyy5Zzzz38Latn5GrekCyrl49Latn5Grek4Latn5Grek13LatnCyrl",
   "70LatnGrek64Zinh256Latn22Grek2Zzzz6Grek2Zzzz38Grek2Zzzz6Grek2Zzzz8GrekZzzzGrekZzzzGrekZzzz",
   "GrekZzzz31Grek2Zzzz53GrekZzzz15GrekZzzz14Grek2Zzzz6GrekZzzz19Grek2Zzzz3GrekZzzz9GrekZzzz",
   "12Zyyy2Zinh87ZyyyZzzz11ZyyyLatn2Zzzz11ZyyyLatn15ZyyyZzzz13Latn3Zzzz33Zyyy15Zzzz33Zinh15Zzzz",
   "38ZyyyGrek3Zyyy2Latn6ZyyyLatn27ZyyyLatn17Zyyy41Latn3Zyyy4Zzzz666Zyyy22Zzzz11Zyyy21Zzzz",
   "928Zyyy256Brai628Zyyy2Zzzz32ZyyyZzzz105Zyyy96Glag32Latn116Copt5Zzzz7Copt38GeorZzzzGeor5Zzzz",
   "Geor2Zzzz56Tfng7Zzzz2Tfng14ZzzzTfng23Ethi9Zzzz7EthiZzzz7EthiZzzz7EthiZzzz7EthiZzzz7EthiZzzz",
   "7EthiZzzz7EthiZzzz7EthiZzzz32Cyrl94Zyyy34Zzzz26HaniZzzz89Hani12Zzzz214Hani26Zzzz21ZyyyHani",
   "ZyyyHani25Zyyy9Hani4Zinh2Hang8Zyyy4Hani4ZyyyZzzz86Hira2Zzzz2Zinh2Zyyy3HiraZyyy90Kana2Zyyy",
   "3Kana5Zzzz43BopoZzzz94HangZzzz16Zyyy32Bopo38Zyyy9ZzzzZyyy16Kana31HangZzzz64Zyyy31Hang81Zyyy",
   "47KanaZyyy88Kana168Zyyy6592Hani64Zyyy20992Hani1165Yiii3Zzzz55Yiii9Zzzz48Lisu300Vaii20Zzzz",
   "96Cyrl88Bamu8Zzzz34Zyyy102Latn3Zyyy67Latn2Zzzz2LatnZzzzLatnZzzz8Latn21Zzzz14Latn45Sylo3Zzzz",
   "10Zyyy6Zzzz56Phag8Zzzz70Saur8Zzzz12Saur6Zzzz32Deva46KaliZyyyKali36Rjng11ZzzzRjng29Hang3Zzzz",
   "78JavaZzzzZyyy10Java4Zzzz2Java31MymrZzzz55Cham9Zzzz14Cham2Zzzz10Cham2Zzzz4Cham32Mymr67Tavt",
   "24Zzzz5Tavt23Mtei10Zzzz6Ethi2Zzzz6Ethi2Zzzz6Ethi9Zzzz7EthiZzzz7EthiZzzz43LatnZyyy9LatnGrek",
   "4Latn2Zyyy4Zzzz80Cher46Mtei2Zzzz10Mtei6Zzzz11172Hang12Zzzz23Hang4Zzzz49Hang8452Zzzz366Hani",
   "2Zzzz106Hani38Zzzz7Latn12Zzzz5Armn5Zzzz26HebrZzzz5HebrZzzzHebrZzzz2HebrZzzz2HebrZzzz10Hebr",
   "115Arab16Zzzz363Arab2Zyyy80Arab2Zzzz54Arab7ZzzzArab32Zzzz16Arab16Zinh10Zyyy6Zzzz14Zinh2Cyrl",
   "35ZyyyZzzz19ZyyyZzzz4Zyyy4Zzzz5ArabZzzz135Arab2ZzzzZyyyZzzz32Zyyy26Latn6Zyyy26Latn11Zyyy",
   "10KanaZyyy45Kana2Zyyy31Hang3Zzzz6Hang2Zzzz6Hang2Zzzz6Hang2Zzzz3Hang3Zzzz7ZyyyZzzz7Zyyy10Zzzz",
   "5Zyyy2Zzzz12LinbZzzz26LinbZzzz19LinbZzzz2LinbZzzz15Linb2Zzzz14Linb34Zzzz123Linb5Zzzz3Zyyy",
   "4Zzzz45Zyyy3Zzzz9Zyyy79GrekZzzz13Zyyy3ZzzzGrek47Zzzz45ZyyyZinh130Zzzz29Lyci3Zzzz49Cari15Zzzz",
   "Zinh27Zyyy4Zzzz36Ital9Zzzz3Ital27Goth5Zzzz43Perm5Zzzz30UgarZzzzUgar36Xpeo4Zzzz14Xpeo42Zzzz",
   "80Dsrt48Shaw30Osma2Zzzz10Osma6Zzzz36Osge4Zzzz36Osge4Zzzz40Elba8Zzzz52Aghb11ZzzzAghb11Vith",
   "Zzzz15VithZzzz7VithZzzz2VithZzzz11VithZzzz15VithZzzz7VithZzzz2Vith3Zzzz52Todr12Zzzz311Lina",
   "9Zzzz22Lina10Zzzz8Lina24Zzzz6LatnZzzz42LatnZzzz9Latn69Zzzz6Cprt2ZzzzCprtZzzz44CprtZzzz2Cprt",
   "3ZzzzCprt2ZzzzCprt22ArmiZzzz9Armi32Palm31Nbat8Zzzz9Nbat48Zzzz19HatrZzzz2Hatr5Zzzz5Hatr28Phnx",
   "3ZzzzPhnx26Lydi5ZzzzLydi64Zzzz32Mero24Merc4Zzzz20Merc2Zzzz46Merc4KharZzzz2Khar5Zzzz8KharZzzz",
   "3KharZzzz29Khar2Zzzz3Khar4Zzzz10Khar7Zzzz9Khar7Zzzz32Sarb32Narb32Zzzz39Mani4Zzzz12Mani9Zzzz",
   "54Avst3Zzzz7Avst22Prti2Zzzz8Prti19Phli5Zzzz8Phli18Phlp7Zzzz4Phlp12Zzzz7Phlp80Zzzz73Orkh",
   "55Zzzz51Hung13Zzzz51Hung7Zzzz6Hung40Rohg8Zzzz10Rohg6Zzzz38Gara3Zzzz29Gara8Zzzz2Gara208Zzzz",
   "31ArabZzzz42YeziZzzz3Yezi2Zzzz2Yezi16Zzzz3Arab55Zzzz4Arab40Sogo8Zzzz42Sogd22Zzzz26Ougr38Zzzz",
   "28Chrs20Zzzz23Elym9Zzzz78Brah4Zzzz36Brah9ZzzzBrah67Kthi10ZzzzKthi2Zzzz25Sora7Zzzz10Sora6Zzzz",
   "53CakmZzzz18Cakm8Zzzz39Mahj9Zzzz96ShrdZzzz20Sinh11Zzzz18KhojZzzz47Khoj62Zzzz7MultZzzzMult",
   "Zzzz4MultZzzz15MultZzzz11Mult6Zzzz59Sind5Zzzz10Sind6Zzzz4GranZzzz8Gran2Zzzz2Gran2Zzzz22Gran",
   "Zzzz7GranZzzz2GranZzzz5GranZzzzZinh9Gran2Zzzz2Gran2Zzzz3Gran2ZzzzGran6ZzzzGran5Zzzz7Gran",
   "2Zzzz7Gran3Zzzz5Gran11Zzzz10TutgZzzzTutg2ZzzzTutgZzzz38TutgZzzz10TutgZzzzTutg2ZzzzTutgZzzz",
   "4TutgZzzz10TutgZzzz2Tutg8Zzzz2Tutg29Zzzz92NewaZzzz5Newa30Zzzz72Tirh8Zzzz10Tirh166Zzzz54Sidd",
   "2Zzzz38Sidd34Zzzz69Modi11Zzzz10Modi6Zzzz13Mong19Zzzz58Takr6Zzzz10Takr6Zzzz20Mymr28Zzzz27Ahom",
   "2Zzzz15Ahom4Zzzz23Ahom185Zzzz60Dogr100Zzzz83Wara12ZzzzWara7Diak2ZzzzDiak2Zzzz8DiakZzzz2Diak",
   "Zzzz30DiakZzzz2Diak2Zzzz12Diak9Zzzz10Diak70Zzzz8Nand2Zzzz46Nand2Zzzz11Nand27Zzzz72Zanb8Zzzz",
   "83Soyo13Zzzz16Cans57Pauc7Zzzz10Deva182Zzzz34Sunu14Zzzz10Sunu6Zzzz9BhksZzzz45BhksZzzz14Bhks",
   "10Zzzz29Bhks3Zzzz32Marc2Zzzz22MarcZzzz14Marc73Zzzz7GonmZzzz2GonmZzzz44Gonm3ZzzzGonmZzzz2Gonm",
   "Zzzz9Gonm8Zzzz10Gonm6Zzzz6GongZzzz2GongZzzz37GongZzzz2GongZzzz6Gong7Zzzz10Gong310Zzzz25Maka",
   "7Zzzz17KawiZzzz41Kawi3Zzzz29Kawi85ZzzzLisu15Zzzz50Taml13ZzzzTaml922Xsux102Zzzz111XsuxZzzz",
   "5Xsux11Zzzz196Xsux2636Zzzz99Cpmn13Zzzz1110Egyp10Zzzz3995Egyp5Zzzz583Hluw6841Zzzz58Gukh",
   "1734Zzzz569Bamu7Zzzz31MrooZzzz10Mroo4Zzzz2Mroo79TnsaZzzz10Tnsa6Zzzz30Bass2Zzzz6Bass10Zzzz",
   "70Hmng10Zzzz10HmngZzzz7HmngZzzz21Hmng5Zzzz19Hmng432Zzzz58Krai198Zzzz91Medf101Zzzz75Plrd4Zzzz",
   "57Plrd7Zzzz17Plrd64ZzzzTangNshu2HaniKits11Zzzz2Hani14Zzzz6136Tang8Zzzz768Tang470Kits41Zzzz",
   "Kits9Tang8935Zzzz4KanaZzzz7KanaZzzz2KanaZzzzKana287Hira3Kana15ZzzzHira29Zzzz3Hira2ZzzzKana",
   "14Zzzz4Kana8Zzzz396Nshu2308Zzzz107Dupl5Zzzz13Dupl3Zzzz9Dupl7Zzzz10Dupl2Zzzz4Dupl4Zyyy",
   "3932Zzzz250Zyyy6Zzzz436Zyyy76Zzzz46Zinh2Zzzz23Zinh9Zzzz116Zyyy60Zzzz246Zyyy10Zzzz39Zyyy2Zzzz",
   "62Zyyy3Zinh17Zyyy8Zinh2Zyyy7Zinh30Zyyy4Zinh61Zyyy21Zzzz70Grek122Zzzz20Zyyy12Zzzz20Zyyy12Zzzz",
   "87Zyyy9Zzzz25Zyyy135Zzzz85ZyyyZzzz71ZyyyZzzz2Zyyy2ZzzzZyyy2Zzzz2Zyyy2Zzzz4ZyyyZzzz12ZyyyZzzz",
   "ZyyyZzzz7ZyyyZzzz65ZyyyZzzz4Zyyy2Zzzz8ZyyyZzzz7ZyyyZzzz28ZyyyZzzz4ZyyyZzzz5ZyyyZzzzZyyy3Zzzz",
   "7ZyyyZzzz340Zyyy2Zzzz292Zyyy2Zzzz50Zyyy652Sgnw15Zzzz5SgnwZzzz15Sgnw1104Zzzz31Latn6Zzzz6Latn",
   "213Zzzz7GlagZzzz17Glag2Zzzz7GlagZzzz2GlagZzzz5Glag5Zzzz62Cyrl33ZzzzCyrl112Zzzz45Hmnp3Zzzz",
   "14Hmnp2Zzzz10Hmnp4Zzzz2Hmnp320Zzzz31Toto17Zzzz58Wcho5ZzzzWcho464Zzzz42Nagm214Zzzz43Onao4Zzzz",
   "Onao480Zzzz7EthiZzzz4EthiZzzz2EthiZzzz15EthiZzzz197Mend2Zzzz16Mend41Zzzz76Adlm4Zzzz10Adlm",
   "4Zzzz2Adlm785Zzzz68Zyyy76Zzzz61Zyyy194Zzzz4ArabZzzz27ArabZzzz2ArabZzzzArab2ZzzzArabZzzz",
   "10ArabZzzz4ArabZzzzArabZzzzArab6ZzzzArab4ZzzzArabZzzzArabZzzzArabZzzz3ArabZzzz2ArabZzzzArab",
   "2ZzzzArabZzzzArabZzzzArabZzzzArabZzzzArabZzzz2ArabZzzzArab2Zzzz4ArabZzzz7ArabZzzz4ArabZzzz",
   "4ArabZzzzArabZzzz10ArabZzzz17Arab5Zzzz3ArabZzzz5ArabZzzz17Arab52Zzzz2Arab270Zzzz44Zyyy4Zzzz",
   "100Zyyy12Zzzz15Zyyy2Zzzz15ZyyyZzzz15ZyyyZzzz37Zyyy10Zzzz174Zyyy56Zzzz26ZyyyHira2Zyyy13Zzzz",
   "44Zyyy4Zzzz9Zyyy7Zzzz2Zyyy14Zzzz6Zyyy154Zzzz984Zyyy4Zzzz17Zyyy3Zzzz13Zyyy3Zzzz119Zyyy4Zzzz",
   "95Zyyy6Zzzz12Zyyy4ZzzzZyyy15Zzzz12Zyyy4Zzzz56Zyyy8Zzzz10Zyyy6Zzzz40Zyyy8Zzzz30Zyyy2Zzzz",
   "12Zyyy4Zzzz2Zyyy62Zzzz340Zyyy12Zzzz14Zyyy2Zzzz13Zyyy3Zzzz10Zyyy5Zzzz56Zyyy7Zzzz15Zyyy2Zzzz",
   "11Zyyy6Zzzz9Zyyy7Zzzz147ZyyyZzzz102Zyyy1030Zzzz42720Hani32Zzzz4154Hani6Zzzz222Hani2Zzzz",
   "5762Hani14Zzzz7473Hani15Zzzz622Hani2466Zzzz542Hani1506Zzzz4939Hani5Zzzz4192Hani711761Zzzz",
   "Zyyy30Zzzz96Zyyy128Zzzz240Zinh196112Zzzz"]

def table : Runs String := .ofText 3 some runText

/-- The characters of the script with a code. -/
def set (code : String) : CharSet := table.set (· == code)

/-- Characters that belong to more than one script, or to another than the table says: the first and
the last code point of a stretch and the codes of its scripts. -/
structure Extension where
  first : Nat
  last : Nat
  codes : String
  deriving DecidableEq, Repr

def extensions : List Extension :=
  [⟨183, 183, "Avst Cari Copt Dupl Elba Geor Glag Gong Goth Grek Hani Latn Lydi Mahj Perm Shaw"⟩,
   ⟨700, 700, "Beng Cyrl Deva Latn Lisu Thai Toto"⟩, ⟨711, 711, "Bopo Latn"⟩,
   ⟨713, 715, "Bopo Latn"⟩, ⟨717, 717, "Latn Lisu"⟩, ⟨727, 727, "Latn Thai"⟩,
   ⟨729, 729, "Bopo Latn"⟩, ⟨768, 768, "Cher Copt Cyrl Grek Latn Perm Sunu Tale"⟩,
   ⟨769, 769, "Cher Cyrl Grek Latn Osge Sunu Tale Todr"⟩, ⟨770, 770, "Cher Cyrl Latn Tfng"⟩,
   ⟨771, 771, "Glag Latn Sunu Syrc Thai"⟩,
   ⟨772, 772, "Aghb Cher Copt Cyrl Goth Grek Latn Osge Syrc Tfng Todr"⟩,
   ⟨773, 773, "Copt Elba Glag Goth Kana Latn"⟩, ⟨774, 774, "Cyrl Grek Latn Perm"⟩,
   ⟨775, 775, "Copt Dupl Hebr Latn Perm Syrc Tale Tfng Todr"⟩,
   ⟨776, 776, "Armn Cyrl Dupl Goth Grek Hebr Latn Perm Syrc Tale"⟩, ⟨777, 777, "Latn Tfng"⟩,
   ⟨778, 778, "Dupl Latn Syrc"⟩, ⟨779, 779, "Cher Cyrl Latn Osge"⟩, ⟨780, 780, "Cher Latn Tale"⟩,
   ⟨781, 781, "Latn Sunu"⟩, ⟨782, 782, "Ethi Latn"⟩, ⟨784, 784, "Latn Sunu"⟩,
   ⟨785, 785, "Cyrl Latn Todr"⟩, ⟨787, 787, "Grek Latn Perm Todr"⟩, ⟨800, 800, "Latn Syrc"⟩,
   ⟨803, 803, "Cher Dupl Kana Latn Syrc"⟩, ⟨804, 804, "Cher Dupl Latn Syrc"⟩,
   ⟨805, 805, "Latn Syrc"⟩, ⟨813, 813, "Latn Sunu Syrc"⟩, ⟨814, 814, "Latn Syrc"⟩,
   ⟨816, 816, "Cher Latn Syrc"⟩, ⟨817, 817, "Aghb Cher Goth Latn Sunu Thai"⟩, ⟨834, 834, "Grek"⟩,
   ⟨837, 837, "Grek"⟩, ⟨856, 856, "Latn Osge"⟩, ⟨862, 862, "Aghb Latn Todr"⟩, ⟨867, 879, "Latn"⟩,
   ⟨884, 885, "Copt Grek"⟩, ⟨1155, 1155, "Cyrl Perm"⟩, ⟨1156, 1156, "Cyrl Glag"⟩,
   ⟨1157, 1158, "Cyrl Latn"⟩, ⟨1159, 1159, "Cyrl Glag"⟩, ⟨1417, 1417, "Armn Geor Glag"⟩,
   ⟨1548, 1548, "Arab Gara Nkoo Rohg Syrc Thaa Yezi"⟩,
   ⟨1563, 1563, "Arab Gara Nkoo Rohg Syrc Thaa Yezi"⟩, ⟨1564, 1564, "Arab Syrc Thaa"⟩,
   ⟨1567, 1567, "Adlm Arab Gara Nkoo Rohg Syrc Thaa Yezi"⟩,
   ⟨1600, 1600, "Adlm Arab Mand Mani Ougr Phlp Rohg Sogd Syrc"⟩, ⟨1611, 1621, "Arab Syrc"⟩,
   ⟨1632, 1641, "Arab Thaa Yezi"⟩, ⟨1648, 1648, "Arab Syrc"⟩, ⟨1748, 1748, "Arab Rohg"⟩,
   ⟨2385, 2385, "Beng Deva Gran Gujr Guru Knda Latn Mlym Orya Shrd Taml Telu Tirh"⟩,
   ⟨2386, 2386, "Beng Deva Gran Gujr Guru Knda Latn Mlym Orya Taml Telu Tirh"⟩,
   ⟨2404, 2404, "Beng Deva Dogr Gong Gonm Gran Gujr Guru Knda Mahj Mlym Nand Onao Orya Sind Sinh Sylo Takr Taml Telu Tirh"⟩,
   ⟨2405, 2405, "Beng Deva Dogr Gong Gonm Gran Gujr Gukh Guru Knda Limb Mahj Mlym Nand Onao Orya Sind Sinh Sylo Takr Taml Telu Tirh"⟩,
   ⟨2406, 2415, "Deva Dogr Kthi Mahj"⟩, ⟨2534, 2543, "Beng Cakm Sylo"⟩, ⟨2662, 2671, "Guru Mult"⟩,
   ⟨2790, 2799, "Gujr Khoj"⟩, ⟨3046, 3059, "Gran Taml"⟩, ⟨3302, 3311, "Knda Nand Tutg"⟩,
   ⟨4160, 4169, "Cakm Mymr Tale"⟩, ⟨4347, 4347, "Geor Glag Latn"⟩, ⟨5867, 5869, "Runr"⟩,
   ⟨5941, 5942, "Buhd Hano Tagb Tglg"⟩, ⟨6146, 6147, "Mong Phag"⟩, ⟨6149, 6149, "Mong Phag"⟩,
   ⟨7376, 7376, "Beng Deva Gran Knda"⟩, ⟨7377, 7377, "Deva"⟩, ⟨7378, 7378, "Beng Deva Gran Knda"⟩,
   ⟨7379, 7379, "Deva Gran Knda"⟩, ⟨7380, 7380, "Deva"⟩, ⟨7381, 7382, "Beng Deva"⟩,
   ⟨7383, 7383, "Deva Shrd"⟩, ⟨7384, 7384, "Beng Deva"⟩, ⟨7385, 7385, "Deva Shrd"⟩,
   ⟨7386, 7386, "Deva Knda Mlym Orya Taml Telu"⟩, ⟨7387, 7387, "Deva"⟩, ⟨7388, 7389, "Deva Shrd"⟩,
   ⟨7390, 7391, "Deva"⟩, ⟨7392, 7392, "Deva Shrd"⟩, ⟨7393, 7393, "Beng Deva"⟩,
   ⟨7394, 7400, "Deva"⟩, ⟨7401, 7401, "Deva Nand"⟩, ⟨7402, 7402, "Beng Deva"⟩,
   ⟨7403, 7404, "Deva"⟩, ⟨7405, 7405, "Beng Deva"⟩, ⟨7406, 7409, "Deva"⟩,
   ⟨7410, 7410, "Beng Deva Gran Knda Mlym Nand Orya Sinh Telu Tirh Tutg"⟩,
   ⟨7411, 7411, "Deva Gran"⟩, ⟨7412, 7412, "Deva Gran Knda Tutg"⟩, ⟨7413, 7414, "Beng Deva"⟩,
   ⟨7415, 7415, "Beng"⟩, ⟨7416, 7417, "Deva Gran"⟩, ⟨7418, 7418, "Nand"⟩, ⟨7616, 7617, "Grek"⟩,
   ⟨7672, 7672, "Cyrl Latn Syrc"⟩, ⟨7674, 7674, "Syrc"⟩, ⟨8239, 8239, "Latn Mong Phag"⟩,
   ⟨8271, 8271, "Adlm Arab"⟩, ⟨8282, 8282, "Cari Geor Glag Hung Lyci Orkh"⟩,
   ⟨8285, 8285, "Cari Grek Hung Mero"⟩, ⟨8432, 8432, "Deva Gran Latn"⟩,
   ⟨11799, 11799, "Copt Latn"⟩, ⟨11824, 11824, "Avst Orkh"⟩,
   ⟨11825, 11825, "Avst Cari Geor Hung Kthi Lydi Samr"⟩, ⟨11836, 11836, "Dupl"⟩,
   ⟨11841, 11841, "Adlm Arab Hung"⟩, ⟨11843, 11843, "Cyrl Glag"⟩, ⟨12272, 12287, "Hani Tang"⟩,
   ⟨12289, 12289, "Bopo Hang Hani Hira Kana Mong Yiii"⟩,
   ⟨12290, 12290, "Bopo Hang Hani Hira Kana Mong Phag Yiii"⟩,
   ⟨12291, 12291, "Bopo Hang Hani Hira Kana"⟩, ⟨12294, 12294, "Hani"⟩,
   ⟨12296, 12297, "Bopo Hang Hani Hira Kana Mong Tibt Yiii"⟩,
   ⟨12298, 12299, "Bopo Hang Hani Hira Kana Lisu Mong Tibt Yiii"⟩,
   ⟨12300, 12305, "Bopo Hang Hani Hira Kana Yiii"⟩, ⟨12307, 12307, "Bopo Hang Hani Hira Kana"⟩,
   ⟨12308, 12315, "Bopo Hang Hani Hira Kana Yiii"⟩, ⟨12316, 12319, "Bopo Hang Hani Hira Kana"⟩,
   ⟨12330, 12333, "Bopo Hani"⟩, ⟨12336, 12336, "Bopo Hang Hani Hira Kana"⟩,
   ⟨12337, 12341, "Hira Kana"⟩, ⟨12343, 12343, "Bopo Hang Hani Hira Kana"⟩,
   ⟨12348, 12349, "Hani Hira Kana"⟩, ⟨12350, 12351, "Hani"⟩, ⟨12441, 12444, "Hira Kana"⟩,
   ⟨12448, 12448, "Hira Kana"⟩, ⟨12539, 12539, "Bopo Hang Hani Hira Kana Yiii"⟩,
   ⟨12540, 12540, "Hira Kana"⟩, ⟨12688, 12703, "Hani"⟩, ⟨12736, 12773, "Hani"⟩,
   ⟨12783, 12783, "Hani Tang"⟩, ⟨12832, 12871, "Hani"⟩, ⟨12928, 12976, "Hani"⟩,
   ⟨12992, 13003, "Hani"⟩, ⟨13055, 13055, "Hani"⟩, ⟨13144, 13168, "Hani"⟩, ⟨13179, 13183, "Hani"⟩,
   ⟨13280, 13310, "Hani"⟩, ⟨42607, 42607, "Cyrl Glag"⟩, ⟨42752, 42759, "Hani Latn"⟩,
   ⟨43056, 43058, "Deva Dogr Gujr Guru Khoj Knda Kthi Mahj Mlym Modi Nand Shrd Sind Takr Tirh Tutg"⟩,
   ⟨43059, 43061, "Deva Dogr Gujr Guru Khoj Knda Kthi Mahj Modi Nand Shrd Sind Takr Tirh Tutg"⟩,
   ⟨43062, 43063, "Deva Dogr Gujr Guru Khoj Kthi Mahj Modi Sind Takr Tirh"⟩,
   ⟨43064, 43064, "Deva Dogr Gujr Guru Khoj Kthi Mahj Modi Shrd Sind Takr Tirh"⟩,
   ⟨43065, 43065, "Deva Dogr Gujr Guru Khoj Kthi Mahj Modi Sind Takr Tirh"⟩,
   ⟨43249, 43249, "Beng Deva Tutg"⟩, ⟨43251, 43251, "Deva Taml"⟩,
   ⟨43310, 43310, "Kali Latn Mymr"⟩, ⟨43471, 43471, "Bugi Java"⟩, ⟨64830, 64831, "Arab Nkoo"⟩,
   ⟨65010, 65010, "Arab Thaa"⟩, ⟨65021, 65021, "Arab Thaa"⟩,
   ⟨65093, 65094, "Bopo Hang Hani Hira Kana"⟩, ⟨65377, 65381, "Bopo Hang Hani Hira Kana Yiii"⟩,
   ⟨65392, 65392, "Hira Kana"⟩, ⟨65438, 65439, "Hira Kana"⟩, ⟨65792, 65793, "Cpmn Cprt Linb"⟩,
   ⟨65794, 65794, "Cprt Linb"⟩, ⟨65799, 65843, "Cprt Lina Linb"⟩, ⟨65847, 65855, "Cprt Linb"⟩,
   ⟨66272, 66299, "Arab Copt"⟩, ⟨68338, 68338, "Mani Ougr"⟩, ⟨70401, 70401, "Gran Taml"⟩,
   ⟨70403, 70403, "Gran Taml"⟩, ⟨70459, 70460, "Gran Taml"⟩, ⟨73680, 73681, "Gran Taml"⟩,
   ⟨73683, 73683, "Gran Taml"⟩, ⟨113824, 113827, "Dupl"⟩, ⟨119648, 119665, "Hani"⟩,
   ⟨127568, 127569, "Hani"⟩]

/-- The characters that the script with a code uses. -/
def useSet (code : String) : CharSet :=
  let all := extensions.map fun e => (e.first, e.last)
  let shared := extensions.filter fun e => (e.codes.splitOn " ").contains code
  ((set code).diff ⟨all⟩).union (.ofRanges (shared.map fun e => (e.first, e.last)))

end Cohort.Unicode.Script
