import Cohort.Unicode.Category

/-!
# Binary properties of Unicode characters

A property is written as the general categories that it mostly consists of and the characters where
it differs from these (Unicode 16). The exceptions are runs from code point 0 up, each with its
length, left out when it is 1, and a letter: `n` for characters judged by their category, `y` for
exceptions. The last run goes on to the end.
-/

namespace Cohort.Unicode

structure Property where
  names : List String
  categories : List Category
  exceptions : Runs Bool

namespace Property

/-- Whether a stretch holds exceptions. -/
def isException? : String → Option Bool
  | "y" => some true
  | "n" => some false
  | _ => none

def ofText (names : List String) (categories : List Category) (exceptions : List String) :
    Property :=
  ⟨names, categories, .ofText 0 isException? exceptions⟩

def holds (p : Property) (c : Char) : Bool :=
  p.categories.contains (Category.of c) != (p.exceptions.find? c.toNat).getD false

/-- The characters with a property. -/
def set (p : Property) : CharSet := (Category.set p.categories).symmDiff (p.exceptions.set id)

def asciiHexDigit : Property :=
  .ofText ["AHex", "ASCII_Hex_Digit"] []
    ["48n10y7n6y26n6yn"]

def alphabetic : Property :=
  .ofText ["Alpha", "Alphabetic"]
    [.uppercaseLetter, .lowercaseLetter, .titlecaseLetter, .modifierLetter, .otherLetter,
     .nonspacingMark, .spacingMark, .letterNumber]
    ["768n69yn29y288n5y265n31y168ny134n2y9n3y83n11y160n9y9ny26n2y19ny43n3y60n8y42n10y12n2y8n6y",
     "76ny16ny3n4y103ny16ny48ny61ny16ny110ny16ny47n3y60ny16ny7ny119ny110ny16ny110ny16ny109n2y16n",
     "y124ny124n6yny107ny13n5yny73n2y27nynyny4n2y68nyn2y62ny112nyn2y802n3y948n2y30ny127n2y19n11y",
     "9ny45n3yny297n3y292ny20n8y2ny48n14y3n11y104ny15ny38n9y54n2y58ny11n2y67ny152n3yn21y4ny6ny2n",
     "3y198n19y34n11y720n13y4ny3n12y965n52y2053n3y141ny682n6y105n2y30164ny12n2y114n2y276ny37ny",
     "151ny27n18y57n3y37ny95ny12ny254nyny52ny245n2y21010n16y16n16y973ny226ny1879n3y4ny165n2y643n",
     "4y399n3y70n11y49n4y192ny41ny14ny57n2y120n2y62ny76ny8n4y104n2y178n2y80n2y16ny24n7y3n5y89n3y",
     "ny14n2y95ny3ny23ny99n2y251n2y126ny118n2y115ny269n2y258n2y4ny156ny82n2y18ny80n2y421ny258nyn",
     "2y81ny425n2y23ny5349ny6n15y11481ny2496n5y59n7y1197ny19640ny4706n46y2n23y542n5y3n6y8n8y2n7y",
     "30n4y148n3y1979n55y4n50y8ny14ny22n5yn15y1664n7y375ny61n4y508n4y254n2y736n7y109n3yn3y2021n",
     "26y6n26y6n26y790390n240yn"]

def bidiControl : Property :=
  .ofText ["Bidi_C", "Bidi_Control"] []
    ["1564ny6641n2y26n5y55n4yn"]

def bidiMirrored : Property :=
  .ofText ["Bidi_M", "Bidi_Mirrored"]
    [.openPunctuation, .closePunctuation, .initialPunctuation, .finalPunctuation]
    ["60nyny8153n8y288ny192n4y3n6y3ny3n2y3n4yn4ynyny4n9y5nyn18y5n4y9n2ynyn8yn32y2n4y5ny9n2y2n19y",
     "5n2y9n5y2n2y4n24y2n16y32n2y1182ny2n2y3n2yn3y5n4y5n3y3n4y437n6yn14y8ny7n6y3ny4n5yn2y6ny4nyn",
     "3y2n2y10n6y16n19yn4y2nyny2nyn4y5n2y6n3y24n2y11n2y4n4yn2y2n2y4n43y2n8yn40y5nyny3n5y5n3y4ny",
     "3n5yny256ny579ny474n3y52510n2y215n2y28n16y2n2y27n2y182nyny55228ny57ny57ny57ny57nyn"]

def caseIgnorable : Property :=
  .ofText ["CI", "Case_Ignorable"]
    [.modifierLetter, .nonspacingMark, .enclosingMark, .modifierSymbol, .format]
    ["39ny6ny11ny124ny719ny471ny148ny6691n2y10ny2ny56811ny62ny2ny177ny6ny11nyn"]

def cased : Property :=
  .ofText ["Cased"] [.uppercaseLetter, .lowercaseLetter, .titlecaseLetter]
    ["170ny15ny501n9y7n2y30n5y96ny52ny3457ny3119n63y13ny34n37y689ny13ny16n13y195n32y822n52y1938n",
     "2y31262n2y210ny129n3y3n2y866n4y9ny23574ny2n3yn42yn9y55413n62y4290n26y6n26y6n26yn"]

def changesWhenCasefolded : Property :=
  .ofText ["CWCF", "Changes_When_Casefolded"] [.uppercaseLetter, .titlecaseLetter]
    ["181ny41ny105ny53ny453ny124ny13n7y25n2y3ny401ny3608n86y2n6y2178n9y529n2y228n8y8n8y8n8y10n3y",
     "2ny10n3y2ny42n3y2ny266ny4ny3n3y2n3y2ny3n5y6ny3ny3n2y2n2yny10n2y5ny26n16y838n26y34464n80y",
     "20288n7y12n5y55528n26y26n26y26n26y26nyn2y2ny2n2y2n4yn8y26n26y26n2yn4y2n8yn7y27n2yn4yn5yny",
     "3n7y27n26y26n26y26n26y26n26y26n26y26n26y30n25y33n25y33n25y33n25y33n25y33nyn"]

def changesWhenCasemapped : Property :=
  .ofText ["CWCM", "Changes_When_Casemapped"]
    [.uppercaseLetter, .lowercaseLetter, .titlecaseLetter]
    ["312ny84ny28n2y14ny3ny98ny18n6y27ny2nyny2n3y2ny4ny5n2yny2n2yn7yn2yny2n3y6n5ynyn8y2n17y149ny",
     "140n3y39ny355ny39ny6007n44y63n13y2n3yn16yn12y257n2yny610ny4ny2n10yny3n5y6ny3ny3n2yn3yn2y4n",
     "y2n4y5n5y22n32y822n52y1927ny2ny2n5y104ny31307n2y63n8y21ny6ny25ny35nyny36ny821n35yn7y5n9y",
     "75927n85yn71yn2y2ny2n2y2n4yn12ynyn7yn65yn4y2n8yn7yn28yn4yn5yny3n7yn340y2n25yn25yn31yn25yn",
     "31yn25yn31yn25yn31yn25yn8y1844n10yn20y6n6yn"]

def changesWhenLowercased : Property :=
  .ofText ["CWL", "Changes_When_Lowercased"] [.uppercaseLetter, .titlecaseLetter]
    ["978n3y7469ny4ny3n3y2n3y2ny3n5y6ny3ny3n2y2n2yny10n2y5ny26n16y838n26y110384n26y26n26y26n26y",
     "26nyn2y2ny2n2y2n4yn8y26n26y26n2yn4y2n8yn7y27n2yn4yn5yny3n7y27n26y26n26y26n26y26n26y26n26y",
     "26n26y30n25y33n25y33n25y33n25y33n25y33nyn"]

def changesWhenTitlecased : Property :=
  .ofText ["CWT", "Changes_When_Titlecased"] [.lowercaseLetter]
    ["312ny84ny28n2y14ny3ny5ny2ny2ny38ny47ny18n6y27ny2nyny2n3y2ny4ny5n2yny2n2yn7yn2yny2n3y6n5yny",
     "n8y2n17y149ny182ny355ny39ny2887n43y2n3y3072n44y63n13y2n3yn16yn12y257n2yny618ny3n2y3ny27ny",
     "4ny4ny2n2y8n4y38n16y848n26y1927ny2ny2n5y104ny31307n2y63n8y21ny6ny25ny35nyny36ny821n35yn7y",
     "5n9y75953n26y26n7yn18y26n26y26n4ynyn7yn11y26n26y26n26y26n26y26n26y26n26y26n26y26n26y26n26y",
     "26n28y28n25yn6y26n25yn6y26n25yn6y26n25yn6y26n25yn6yny1844n10yn20y6n6yn"]

def changesWhenUppercased : Property :=
  .ofText ["CWU", "Changes_When_Uppercased"] [.lowercaseLetter, .titlecaseLetter]
    ["312ny84ny28n2y14ny3ny98ny18n6y27ny2nyny2n3y2ny4ny5n2yny2n2yn7yn2yny2n3y6n5ynyn8y2n17y149ny",
     "182ny355ny39ny6007n44y63n13y2n3yn16yn12y257n2yny618ny3n2y3ny27ny4ny4ny2n2y8n4y38n16y848n",
     "26y1927ny2ny2n5y104ny31307n2y63n8y21ny6ny25ny35nyny36ny821n35yn7y5n9y75953n26y26n7yn18y26n",
     "26y26n4ynyn7yn11y26n26y26n26y26n26y26n26y26n26y26n26y26n26y26n26y26n28y28n25yn6y26n25yn6y",
     "26n25yn6y26n25yn6y26n25yn6yny1844n10yn20y6n6yn"]

def dash : Property :=
  .ofText ["Dash"] [.dashPunctuation]
    ["8275ny39ny15ny390nyn"]

def defaultIgnorableCodePoint : Property :=
  .ofText ["DI", "Default_Ignorable_Code_Point"] []
    ["173ny673ny716ny2882n2y1619n2y85n5y2043n5y26n5y49n16y4340ny52379n16y239ny160ny79n9y48295n4y",
     "5327n8y798341n4096yn"]

def deprecated : Property :=
  .ofText ["Dep", "Deprecated"] []
    ["329ny1321ny2307nyny2089n2y2245n6y697n2y908502nyn"]

def diacritic : Property :=
  .ofText ["Dia", "Diacritic"] [.modifierSymbol]
    ["183ny504n18y4n12y14n5y7nyny17n79yn8y5n6y17ny5ny264n5y209ny55n17yn27ynyn2yny134n8y4n2y134n",
     "2y4n2y3n3y67n27y91n11y58n11y34n2y110ny15n8y41n10y16n28y61ny16ny3n4y28ny74ny16ny110ny16ny",
     "110ny16ny47n3y60ny16ny7ny119ny110ny16ny110ny16ny109n2y16ny124ny111ny12n6yny107ny13n5y75n2y",
     "27nynyny4n2y66n3yn2y62ny112nyn2y40n2y4n5y25n7yny10n2y705n3y948n2y30ny148n11y9ny347n3y292ny",
     "20n8y2ny48n15y2n11y104ny15ny38n9y54n2y58ny11n2y66n2y64n6y82n25y4ny6ny2n3y50n63y89n12y37n",
     "11y3823n3y317ny506n6y105n2y97ny30066ny12n2yny28n2y82n2y37n9y104ny111n2y12ny37ny151ny27n18y",
     "57n4y36ny95ny12ny36ny149n3y65n4y51ny101n4y9ny130n2y20272ny147n17y605n16y320ny45n2y832ny",
     "1183n6yn42yn9y637n3y4ny165n2y571n6y38ny26n5y399n3y70n11y49n4y192ny41ny72n2y120n2y62ny76ny",
     "9n3y104n2y178n2y80n2y16ny24n7y3n5y89n3yn2y13n2y95ny3ny123n2y251n2y126ny118n2y115ny269n2y",
     "258n2y4ny156ny83ny18ny81ny421ny258nyn2y81ny425n2y23ny5356n15y11481ny2496n5y59n7y564n2y546n",
     "17y80n2y16382n4yn7yn2y7937n46y2n23y544n3y3n6y8n8y2n7y30n4y3714n62y194n7y375ny61n4y766n2y",
     "736n7y109n3yn3y2736n5yn"]

def emoji : Property :=
  .ofText ["Emoji"] []
    ["35ny6ny5n10y111ny4ny8077ny12ny216ny22ny90n6y15n2y367n2y12ny166ny25n11y4n3y199ny231n2y10ny",
     "9ny58n4yn5y9ny2ny2n2y2ny4ny2nyn2y2ny3ny3n2y8n3y5nyny5n12y11n2y2nyn2yny18ny2n2y18n6ynyn2y3n",
     "2y5ny2n2y4n2y11n2y5n2y2ny5n2ynyn2y20n2y5n6yn4y2ny4ny2ny2n6yny2nynyny6ny3ny6ny10n2y15ny2ny",
     "4nyny4n3yny11n2y48n3y9ny14ny14ny372n2y463n3y19n2y51ny4ny1242ny12ny601nyny114026ny202ny160n",
     "2y12n2y14ny2n10y75n26yn2y23ny20ny2n9y21n2y174n34y2n112y2n2yn3y2n83y2n3yn263yn63y11n6yn24y",
     "7n2y2n8y12ny2n4y2ny4n2y13n2y2ny8n2y9ny5n3y12n3y8n3y2nyny4ny6ny3ny6n86y48n70y5n8y2n3y4n10y",
     "3nyn2y3ny2n10y227n12y4ny283n47yn10yn185y112n13y3n10y5n56y7n15y2n11y6n9yn"]

def emojiComponent : Property :=
  .ofText ["EComp", "Emoji_Component"] []
    ["35ny6ny5n10y8147ny213ny56619ny62422n26y507n5y1456n4y788076n96yn"]

def emojiModifier : Property :=
  .ofText ["EMod", "Emoji_Modifier"] []
    ["127995n5yn"]

def emojiModifierBase : Property :=
  .ofText ["EBase", "Emoji_Modifier_Base"] []
    ["9757ny219ny16n4y117879ny60n3y2ny2n3y117n2y2n11y21n19y3ny4n3yn3y7nyny24ny201n2y4ny21ny4n2y",
     "174n3y3n5y83ny16n3y9ny11ny575ny2ny8n8y6ny9n10y2n3y56ny61n2yn2yny17n3yn13y229n3y42n9yn"]

def emojiPresentation : Property :=
  .ofText ["EPres", "Emoji_Presentation"] []
    ["8986n2y205n4y3ny2ny521n2y21n2y50n12y43ny19ny13ny8n2y17n2y5n2y8ny5ny21ny7n2yny4ny2ny7ny4n2y",
     "28ny35nyny4n3yny61n3y24ny14ny859n2y51ny4ny115886ny202ny190ny2n10y75n26yny24ny20ny2n5yn3y",
     "21n2y174n33y12n9yn70yn22y12n43y4n5y12n17y3ny3n71ynyn187y2n63y13n4yn24y18ny26n2y13ny86n85y",
     "48n70y6ny3n3y2n3y4n4y11n2y7n9y227n12y4ny283n47yn10yn185y112n13y3n10y5n56y7n15y2n11y6n9yn"]

def extendedPictographic : Property :=
  .ofText ["ExtPict", "Extended_Pictographic"] []
    ["169ny4ny8077ny12ny216ny22ny90n6y15n2y367n2y12ny95ny70ny25n11y4n3y199ny231n2y10ny9ny58n4yn",
     "6yn12yn114y10n118y2n11ynyny6ny3ny6ny10n2y15ny2ny4nyny4n3yny11n5y45n3y9ny14ny14ny372n2y463n",
     "3y19n2y51ny4ny1242ny12ny601nyny114022n256y13n3y31ny60n6y12n2y14ny2n10y18n57y27n15y10ny20ny",
     "2n9yn4y9n434y5n318y8n266y48n128y116n12y85n43y12n4y56n8y10n6y40n8y30n82y12n47yn10yn441y256n",
     "1022yn"]

def extender : Property :=
  .ofText ["Ext", "Extender"] []
    ["183ny536n2y878ny441ny630ny137ny89ny752ny127ny2371ny56ny611ny398ny68ny5001ny43n5y103n2y93n",
     "3y28438ny1526ny962ny22ny137ny108ny21n2y21627ny2064n2y1483ny27ny4ny1223ny293ny116n2y498n3y",
     "1231ny20649n2y1180n2yny29016n2y1201ny852n3yn"]

def graphemeBase : Property :=
  .ofText ["Gr_Base", "Grapheme_Base"]
    [.uppercaseLetter, .lowercaseLetter, .titlecaseLetter, .modifierLetter, .otherLetter,
     .spacingMark, .decimalNumber, .letterNumber, .otherNumber, .connectorPunctuation,
     .dashPunctuation, .openPunctuation, .closePunctuation, .initialPunctuation,
     .finalPunctuation, .otherPunctuation, .mathSymbol, .currencySymbol, .modifierSymbol,
     .otherSymbol, .spaceSeparator]
    ["2494ny24ny358ny24ny102ny24ny232nyny4n2yn2y9n2y103ny24ny119ny15ny2357ny30ny1024ny5nyny5n2y",
     "101ny71n2y5178n2y31011ny108ny21981n2y4640ny116ny264ny14ny9ny96ny9ny2nyn3y5ny224ny12ny241ny",
     "262ny633ny12ny1539ny20654n2y24947n2y6n6yn"]

def graphemeExtend : Property :=
  .ofText ["Gr_Ext", "Grapheme_Extend"] [.nonspacingMark, .enclosingMark]
    ["2494ny24ny358ny24ny102ny24ny232nyny4n2yn2y9n2y103ny24ny119ny15ny2357ny30ny1024ny5nyny5n2y",
     "101ny71n2y1048ny4129n2y31011ny108ny21981n2y4640ny116ny264ny14ny9ny96ny9ny2nyn3y5ny224ny12n",
     "y241ny262ny633ny12ny1539ny20654n2y24947n2y6n6y798381n96yn"]

def graphemeLink : Property :=
  .ofText ["Gr_Link", "Grapheme_Link"] []
    ["2381ny127ny127ny127ny127ny127ny127ny127ny109n2y16ny124ny111ny127ny201ny180n2y1753n2y30ny",
     "157ny653ny227ny101n2y70n2y4491ny31366ny37ny151ny142ny108ny309ny246ny24145ny1542ny41ny14ny",
     "57ny121n2y139ny116ny180ny98ny128n3y113ny127ny252ny127ny118ny116ny269ny259n2y161ny83ny18ny",
     "81ny421ny260n2y81ny425n2y16876nyn"]

def hexDigit : Property :=
  .ofText ["Hex", "Hex_Digit"] []
    ["48n10y7n6y26n6y65193n10y7n6y26n6yn"]

def hyphen : Property :=
  .ofText ["Hyphen"] []
    ["45ny127ny1244ny4731ny2057n2y3589ny739ny52583ny169ny87nyn"]

def idsBinaryOperator : Property :=
  .ofText ["IDSB", "IDS_Binary_Operator"] []
    ["12272n2y2n10y497nyn"]

def idsTrinaryOperator : Property :=
  .ofText ["IDST", "IDS_Trinary_Operator"] []
    ["12274n2yn"]

def idsUnaryOperator : Property :=
  .ofText ["IDSU", "IDS_Unary_Operator"] []
    ["12286n2yn"]

def idCompatMathContinue : Property :=
  .ofText ["ID_Compat_Math_Continue"] []
    ["178n2y5ny8118ny3n11yn15y371ny4ny22ny111778ny25ny31ny25ny31ny25ny31ny25ny31ny25nyn"]

def idCompatMathStart : Property :=
  .ofText ["ID_Compat_Math_Start"] []
    ["8706ny4ny22ny111778ny25ny31ny25ny31ny25ny31ny25ny31ny25nyn"]

def idContinue : Property :=
  .ofText ["IDC", "ID_Continue"]
    [.uppercaseLetter, .lowercaseLetter, .titlecaseLetter, .modifierLetter, .otherLetter,
     .nonspacingMark, .spacingMark, .decimalNumber, .letterNumber, .connectorPunctuation]
    ["183ny719ny4065n9y1640ny1585n2y266ny21ny3328ny619n2y94ny52841nyn"]

def idStart : Property :=
  .ofText ["IDS", "ID_Start"]
    [.uppercaseLetter, .lowercaseLetter, .titlecaseLetter, .modifierLetter, .otherLetter,
     .letterNumber]
    ["6277n2y2193ny21ny3328ny619n2yn"]

def ideographic : Property :=
  .ofText ["Ideo", "Ideographic"] []
    ["12294n2y25n9y14n3y965n6592y64n20992y22784n366y2n106y29962ny27n6136y8n1238y41n10y9319n396y",
     "19716n42720y32n4154y6n222y2n5762y14n7473y15n622y2466n542y1506n4939y5n4192yn"]

def joinControl : Property :=
  .ofText ["Join_C", "Join_Control"] []
    ["8204n2yn"]

def logicalOrderException : Property :=
  .ofText ["LOE", "Logical_Order_Exception"] []
    ["3648n5y123n5y2800n3y2ny37114n2y2nyn2yn"]

def lowercase : Property :=
  .ofText ["Lower", "Lowercase"] [.lowercaseLetter]
    ["170ny15ny501n9y7n2y30n5y96ny52ny3457ny3119n63y13ny34n37y689ny13ny16n13y211n16y848n26y1938n",
     "2y31262n2y210ny129n3y3n2y866n4y9ny23574ny2n3yn42yn9y55413n62yn"]

def math : Property :=
  .ofText ["Math"] [.mathSymbol]
    ["94ny881n3y2ny26n2y2n2y7200ny27n3y11ny32n4y24n2y14n2y65n13y4ny3n2y4n5y18ny4ny2n10yny3n5y6ny",
     "3n2y2n2yn3yn6y3n4y5n5y75n5y2n4yn2yn2ynyn5y2n2y4n2y4n18y2n2ynyn7yny6n2y290n4y168n2yny24ny",
     "17ny445n2y12n9y5n5y5n2y2n2y3n5y14nyny2n6y24n2y57nyny29n4y9n2y342n2y31n10y403n22y63n4y32n2y",
     "54371nyny4ny211nyny54465n85yn71yn2y2ny2n2y2n4yn12ynyn7yn65yn4y2n8yn7yn28yn4yn5yny3n7yn340y",
     "2n25yn25yn31yn25yn31yn25yn31yn25yn31yn25yn8y2n50y5632n4yn27yn2yny2nyn10yn4ynyny6ny4nynynyn",
     "3yn2yny2nynynynynyn2yny2n4yn7yn4yn4ynyn10yn17y5n3yn5yn17yn"]

def modifierCombiningMark : Property :=
  .ofText ["MCM", "Modifier_Combining_Mark"] []
    ["1620n2y2ny131ny6ny3n2y481n2yn3y3ny31nyn"]

def noncharacterCodePoint : Property :=
  .ofText ["NChar", "Noncharacter_Code_Point"] []
    ["64976n32y526n2y65534n2y65534n2y65534n2y65534n2y65534n2y65534n2y65534n2y65534n2y65534n2y",
     "65534n2y65534n2y65534n2y65534n2y65534n2y65534n2y65534n2y"]

def otherAlphabetic : Property :=
  .ofText ["OAlpha", "Other_Alphabetic"] [.nonspacingMark, .spacingMark]
    ["768n69yn29y288n5y265n31y168ny134n2y9n3y83n11y160n9y9ny26n2y19ny43n3y60n8y42n10y12n2y8n6y",
     "76ny16ny3n4y103ny16ny48ny61ny16ny110ny16ny47n3y60ny16ny7ny119ny110ny16ny110ny16ny109n2y16n",
     "y124ny124n6yny107ny13n5yny73n2y27nynyny4n2y68nyn2y62ny112nyn2y802n3y948n2y30ny127n2y19n11y",
     "9ny45n3yny297n3y292ny20n8y2ny48n14y3n11y104ny15ny38n9y54n2y58ny11n2y67ny152n3yn21y4ny6ny2n",
     "3y198n19y34n11y720n13y4ny3n12y965n52y2053n3y141ny682n6y105n2y30164ny12n2y114n2y276ny37ny",
     "151ny27n18y57n3y37ny95ny12ny254nyny52ny245n2y21010n16y16n16y973ny226ny1879n3y4ny165n2y643n",
     "4y399n3y70n11y49n4y192ny41ny14ny57n2y120n2y62ny76ny8n4y104n2y178n2y80n2y16ny24n7y3n5y89n3y",
     "ny14n2y95ny3ny23ny99n2y251n2y126ny118n2y115ny269n2y258n2y4ny156ny82n2y18ny80n2y421ny258nyn",
     "2y81ny425n2y23ny5349ny6n15y11481ny2496n5y59n7y1197ny19640ny4706n46y2n23y542n5y3n6y8n8y2n7y",
     "30n4y148n3y1979n55y4n50y8ny14ny22n5yn15y1664n7y375ny61n4y508n4y254n2y736n7y109n3yn3y2021n",
     "26y6n26y6n26y790390n240yn"]

def otherDefaultIgnorableCodePoint : Property :=
  .ofText ["ODI", "Other_Default_Ignorable_Code_Point"] []
    ["847ny3599n2y1619n2y2223ny4350ny52795ny79n9y851975nyn30y96n128y240n3600yn"]

def otherGraphemeExtend : Property :=
  .ofText ["OGr_Ext", "Other_Grapheme_Extend"] []
    ["2494ny24ny358ny24ny102ny24ny232nyny4n2yn2y9n2y103ny24ny119ny15ny2357ny30ny1024ny5nyny5n2y",
     "101ny71n2y1048ny4129n2y31011ny108ny21981n2y4640ny116ny264ny14ny9ny96ny9ny2nyn3y5ny224ny12n",
     "y241ny262ny633ny12ny1539ny20654n2y24947n2y6n6y798381n96yn"]

def otherIdContinue : Property :=
  .ofText ["OIDC", "Other_ID_Continue"] []
    ["183ny719ny4065n9y1640ny1585n2y4333ny52841nyn"]

def otherIdStart : Property :=
  .ofText ["OIDS", "Other_ID_Start"] []
    ["6277n2y2193ny21ny3948n2yn"]

def otherLowercase : Property :=
  .ofText ["OLower", "Other_Lowercase"] []
    ["170ny15ny501n9y7n2y30n5y96ny52ny3457ny3119n63y13ny34n37y689ny13ny16n13y211n16y848n26y1938n",
     "2y31262n2y210ny129n3y3n2y866n4y9ny23574ny2n3yn42yn9y55413n62yn"]

def otherMath : Property :=
  .ofText ["OMath", "Other_Math"] []
    ["94ny881n3y2ny26n2y2n2y7200ny27n3y11ny32n4y24n2y14n2y65n13y4ny3n2y4n5y18ny4ny2n10yny3n5y6ny",
     "3n2y2n2yn3yn6y3n4y5n5y75n5y2n4yn2yn2ynyn5y2n2y4n2y4n18y2n2ynyn7yny6n2y290n4y168n2yny24ny",
     "17ny445n2y12n9y5n5y5n2y2n2y3n5y14nyny2n6y24n2y57nyny29n4y9n2y342n2y31n10y403n22y63n4y32n2y",
     "54371nyny4ny211nyny54465n85yn71yn2y2ny2n2y2n4yn12ynyn7yn65yn4y2n8yn7yn28yn4yn5yny3n7yn340y",
     "2n25yn25yn31yn25yn31yn25yn31yn25yn31yn25yn8y2n50y5632n4yn27yn2yny2nyn10yn4ynyny6ny4nynynyn",
     "3yn2yny2nynynynynyn2yny2n4yn7yn4yn4ynyn10yn17y5n3yn5yn17yn"]

def otherUppercase : Property :=
  .ofText ["OUpper", "Other_Uppercase"] []
    ["8544n16y838n26y117856n26y6n26y6n26yn"]

def patternSyntax : Property :=
  .ofText ["Pat_Syn", "Pattern_Syntax"]
    [.openPunctuation, .closePunctuation, .initialPunctuation, .finalPunctuation]
    ["33n7y2n6y10n7y27nynyny27nyny34n7yny2nynyn2y4ny8ny23ny31ny3650n4y1885n2y2419n8y8n8y8n9y2n4y",
     "2n4y2n13yn10y30n2y14n2y257n376y4n29y2n309y160n616y44n49y2n31y10n403y22n63y4n32y2n514y512n",
     "2y4n3y2ny2n14y2n2y10n24yn18y8n35y385n3y14n2y8ny3ny15ny52710n2y28n20y16n6y169n2y49nyny29nyn",
     "yn2yn2yn"]

def patternWhiteSpace : Property :=
  .ofText ["Pat_WS", "Pattern_White_Space"] [.lineSeparator, .paragraphSeparator]
    ["9n5y18ny100ny8072n2yn"]

def prependedConcatenationMark : Property :=
  .ofText ["PCM", "Prepended_Concatenation_Mark"] []
    ["1536n6y215ny49ny384n2y80ny67546ny15nyn"]

def quotationMark : Property :=
  .ofText ["QMark", "Quotation_Mark"] []
    ["34ny4ny131ny15ny8028n8y25n2y3591ny457n4y13n3y52769n4y189ny4ny90n2yn"]

def radical : Property :=
  .ofText ["Radical"] []
    ["11904n26yn89y12n214yn"]

def regionalIndicator : Property :=
  .ofText ["RI", "Regional_Indicator"] []
    ["127462n26yn"]

def sentenceTerminal : Property :=
  .ofText ["STerm", "Sentence_Terminal"] []
    ["33ny12ny16ny1353ny147n3y180ny43n3y246ny61nyny3n2y293n2y1764n2y790ny4n2y773ny198n2y157n2y",
     "45ny5ny314n2y354n4y162n2y10n2y2n2y29n3y187n2y65n2y932ny23n2y9n3y3247n3y306ny13ny22n2y429ny",
     "29948ny270n2y227ny3ny382n2y86n2y95ny152n2y147n3y144n2y249ny21030ny2n2y59ny3n2y169ny12ny16n",
     "y65ny2804n2y1277n5y44n4y189n2y117n4y127n3y129n2y6ny16n2y88n2yn2y108ny298n2y117n2y373n2y5n",
     "15y105n2y249n3y517nyny251n2y87n2y420n2y692n2y74n2y19241n2y133ny65n2y11ny553n2y296ny19974ny",
     "7656nyn"]

def softDotted : Property :=
  .ofText ["SD", "Soft_Dotted"] []
    ["105n2y196ny281ny30ny52ny20ny320ny98nyny6409ny51ny13ny3ny132ny157ny421ny214n2y2866ny108453n",
     "2y50n2y50n2y50n2y50n2y50n2y50n2y50n2y50n2y50n2y50n2y50n2y50n2y2182ny305n2y26nyn"]

def terminalPunctuation : Property :=
  .ofText ["Term", "Terminal_Punctuation"] []
    ["33ny10nyny11n2y3ny830ny8ny513ny57ny72ny14nyn3y180ny43n11yny235n2y54n6yn8y31ny261n2y1268n2y",
     "172ny4n6y311n2y789n8y773ny124n3y71n2y157n3y3ny39n4y2n2y314n2y354n4y162n2y10n2yn3y29n3y187n",
     "5y62n2y932ny23n2y9n3y3247n3y306ny13ny4ny10nyn2y3n2y428n2y29947n2y269n3y227n5y382n2y86n2y",
     "95ny151n3y147n3y127ny16n2y249ny21030ny2n2y57n3yn4y169ny10nyny11n2y3ny65ny2ny1082ny48ny",
     "1158ny199ny310n2y152n6y68n6y89n4y952n5y44n4y189n7y112n4y127n3y129n2y6ny16n2y88n5y108ny298n",
     "2y117n3y12n2y358n4y3n15y105n2y249n3y517nyny251n2y87n2y4n2y414n3y45ny645n2y74n2y1323n5y",
     "17913n2y133ny65n3y10ny553n2y295n2y19974ny7655n4yn"]

def unifiedIdeograph : Property :=
  .ofText ["UIdeo", "Unified_Ideograph"] []
    ["13312n6592y64n20992y23054n2ynyn2y10nynyn2y2n3y67030n42720y32n4154y6n222y2n5762y14n7473y15n",
     "622y4514n4939y5n4192yn"]

def uppercase : Property :=
  .ofText ["Upper", "Uppercase"] [.uppercaseLetter]
    ["8544n16y838n26y117856n26y6n26y6n26yn"]

def variationSelector : Property :=
  .ofText ["VS", "Variation_Selector"] []
    ["6155n3yny58864n16y852720n240yn"]

def whiteSpace : Property :=
  .ofText ["space", "WSpace", "White_Space"]
    [.spaceSeparator, .lineSeparator, .paragraphSeparator]
    ["9n5y119nyn"]

def xidContinue : Property :=
  .ofText ["XIDC", "XID_Continue"]
    [.uppercaseLetter, .lowercaseLetter, .titlecaseLetter, .modifierLetter, .otherLetter,
     .nonspacingMark, .spacingMark, .decimalNumber, .letterNumber, .connectorPunctuation]
    ["183ny706ny12ny4065n9y1640ny1585n2y266ny21ny3328ny715ny52066n6y406n2y116nynynynynynynyny",
     "230nyn"]

def xidStart : Property :=
  .ofText ["XIDS", "XID_Start"]
    [.uppercaseLetter, .lowercaseLetter, .titlecaseLetter, .modifierLetter, .otherLetter,
     .letterNumber]
    ["890ny2744ny127ny2513n2y2193ny21ny3328ny52782n6y406n2y116nynynynynynynyny287n2yn"]

def all : List Property :=
  [asciiHexDigit, alphabetic, bidiControl, bidiMirrored, caseIgnorable, cased,
   changesWhenCasefolded, changesWhenCasemapped, changesWhenLowercased, changesWhenTitlecased,
   changesWhenUppercased, dash, defaultIgnorableCodePoint, deprecated, diacritic, emoji,
   emojiComponent, emojiModifier, emojiModifierBase, emojiPresentation, extendedPictographic,
   extender, graphemeBase, graphemeExtend, graphemeLink, hexDigit, hyphen, idsBinaryOperator,
   idsTrinaryOperator, idsUnaryOperator, idCompatMathContinue, idCompatMathStart, idContinue,
   idStart, ideographic, joinControl, logicalOrderException, lowercase, math,
   modifierCombiningMark, noncharacterCodePoint, otherAlphabetic, otherDefaultIgnorableCodePoint,
   otherGraphemeExtend, otherIdContinue, otherIdStart, otherLowercase, otherMath, otherUppercase,
   patternSyntax, patternWhiteSpace, prependedConcatenationMark, quotationMark, radical,
   regionalIndicator, sentenceTerminal, softDotted, terminalPunctuation, unifiedIdeograph,
   uppercase, variationSelector, whiteSpace, xidContinue, xidStart]

end Property

/-- White space. In ASCII that is the blank, and what lies from the tab to the carriage return. -/
def isWhiteSpace (c : Char) : Bool :=
  if c.toNat < 0x80 then c == ' ' || ('\t' ≤ c && c ≤ '\r') else Property.whiteSpace.holds c

end Cohort.Unicode
